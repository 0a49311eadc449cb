/-
  Wifi/Suspension.lean --- when the client tasks stay suspended while the WLAN
  link is down.

  The disconnect block suspends the LWM2M, monitor and MQTT tasks; the IP block
  after it resumes the monitor and the last block of the pass resumes the LWM2M
  task.  A value that carries an IP or a synced bit next to the disconnect bit
  therefore undoes the suspension.  As for the timer, the invariant follows what
  the rest of the pass will make of each task.
-/
import Uiso.Wifi.SyncTimer

set_option autoImplicit false

namespace Uiso.Wifi

open Uiso.Foundation
open Uiso.Rtos

/-- The most recent WLAN connection event was a disconnect or a failure. -/
def State.LinkDown (s : State) : Prop :=
  s.lastEvent = some .disconnect ∨ s.lastEvent = some .connectionFailed

instance (s : State) : Decidable s.LinkDown :=
  inferInstanceAs (Decidable (_ ∨ _))

/-- The bits for which a pass resumes a task. -/
def resumeBits : Client → BitVec 32
  | .lwm2m => wifiNtpTimeSynced
  | .monitor => IpState.v4Acquired.bits ||| IpState.v6Acquired.bits
  | .mqtt => 0#32

/-- Whether a client is suspended at the end of the pass over `value`, when
`suspended` says whether it is before the given statement. -/
def suspendedAfterPass (value : BitVec 32) (c : Client) (suspended : Bool) : Block → Bool
  | .connected | .stopTimer =>
      !test value (resumeBits c) &&
        (test value ConnectionState.disconnected.bits || suspended)
  | .suspendLwm2m => !test value (resumeBits c)
  | .suspendMonitor =>
      match c with
      | .lwm2m => !test value (resumeBits c) && suspended
      | .monitor | .mqtt => !test value (resumeBits c)
  | .suspendMqtt =>
      match c with
      | .lwm2m | .monitor => !test value (resumeBits c) && suspended
      | .mqtt => true
  | .ipAcquired => !test value (resumeBits c) && suspended
  | .ntpStop | .ntpRequest | .ntpRestart _ | .ntpNotify | .ntpSynced =>
      match c with
      | .lwm2m => !test value (resumeBits c) && suspended
      | .monitor | .mqtt => suspended

/-- Whether a client is suspended when `wifi_task` next waits, if nothing else
happens. -/
def suspendedAfter (s : State) (c : Client) : Bool :=
  match s.pc with
  | .running value block => suspendedAfterPass value c (s.task c).suspended block
  | _ => (s.task c).suspended

/-- Every client is suspended whenever the task waits with nothing pending and
the link is down. -/
def SuspendedWhileDown (s : State) : Prop :=
  s.pc = .waiting → s.notification.received = false → s.LinkDown →
    (s.task .lwm2m).suspended = true ∧ (s.task .monitor).suspended = true ∧
      (s.task .mqtt).suspended = true

instance (s : State) : Decidable (SuspendedWhileDown s) :=
  inferInstanceAs (Decidable (_ → _ → _ → _ ∧ _ ∧ _))

/-- The condition on a read of the notification value: while the link is down no
value with an IP-acquired or an NTP-synced bit is read. -/
def ReadsNoResume (s : State) : Action → Prop
  | .task _ => s.pc = .waiting → s.LinkDown →
      test s.notification.value (IpState.v4Acquired.bits ||| IpState.v6Acquired.bits) = false ∧
        test s.notification.value wifiNtpTimeSynced = false
  | _ => True

instance (s : State) : ∀ a : Action, Decidable (ReadsNoResume s a)
  | .task _ => inferInstanceAs (Decidable (_ → _ → _ ∧ _))
  | .wlan _ | .netApp _ | .timerExpiry | .taskStart _ | .waitTimeout => .isTrue trivial

/-! ## The invariant -/

/-- What holds of every state of a run that reads no resume while the link is
down. -/
structure SuspensionInv (s : State) : Prop where
  /-- without a received notification no bit is left over -/
  idle : s.notification.received = false → s.notification.value = 0#32
  /-- with no disconnect bit pending while the link is down, the rest of the
  pass leaves every client suspended -/
  outcome : test s.notification.value ConnectionState.disconnected.bits = false →
    s.LinkDown → ∀ c, suspendedAfter s c = true

theorem SuspensionInv.initial : SuspensionInv State.init where
  idle := fun _ => rfl
  outcome := by simp [State.init, State.LinkDown]

theorem SuspensionInv.suspendedWhileDown {s : State} (h : SuspensionInv s) :
    SuspendedWhileDown s := by
  intro hpc hreceived hdown
  have hvalue := h.idle hreceived
  have hall : ∀ c, (s.task c).suspended = true := by
    intro c
    have hc := h.outcome (by simp [hvalue]) hdown c
    simpa [suspendedAfter, hpc] using hc
  exact ⟨hall .lwm2m, hall .monitor, hall .mqtt⟩

/-- Posting bits keeps the invariant: it only adds to the pending value. -/
theorem SuspensionInv.notify {s : State} (h : SuspensionInv s) (bits : BitVec 32) :
    SuspensionInv (s.notify bits) where
  idle := by simp [State.notify]
  outcome := by
    intro hdisc hdown c
    simp only [State.notify, Notification.setBits_value] at hdisc
    rw [test_or, Bool.or_eq_false_iff] at hdisc
    exact h.outcome hdisc.1 hdown c

/-- A state with a disconnect bit pending has nothing to show. -/
theorem SuspensionInv.of_disconnect_pending {s : State} (hreceived : s.notification.received = true)
    (hdisc : test s.notification.value ConnectionState.disconnected.bits = true) :
    SuspensionInv s where
  idle := by simp [hreceived]
  outcome := by simp [hdisc]

theorem SuspensionInv.wlan {s : State} (h : SuspensionInv s) (event : WlanEvent) :
    SuspensionInv (wlanEvtHdlr s event) := by
  cases event with
  | connect =>
      refine ⟨by simp [wlanEvtHdlr, State.notify], ?_⟩
      intro _ hdown
      simp [wlanEvtHdlr, State.notify, State.LinkDown] at hdown
  | disconnect | connectionFailed =>
      apply SuspensionInv.of_disconnect_pending
      · simp [wlanEvtHdlr, State.notify]
      · simp only [wlanEvtHdlr, State.notify, Notification.setBits_value]
        rw [test_or, (test_connection_bits .disconnected).2]
        simp
  | _ => exact h.notify _

/-! ## The task's own steps -/

/-- One statement of the pass does to a client what `suspendedAfterPass` says. -/
theorem suspendedAfterPass_block (value : BitVec 32) (reply : Sntp.Reply) (s : State)
    (b : Block) (c : Client) :
    (match nextBlock value reply b with
      | some next =>
          suspendedAfterPass value c ((blockEffect value reply s b).task c).suspended next
      | none => ((blockEffect value reply s b).task c).suspended) =
      suspendedAfterPass value c (s.task c).suspended b := by
  cases b with
  | connected =>
      simp only [nextBlock, blockEffect, suspendedAfterPass]
      split <;> rfl
  | stopTimer =>
      cases hd : test value ConnectionState.disconnected.bits <;>
        cases ha : s.timer.active <;>
          simp [nextBlock, blockEffect, suspendedAfterPass, hd, ha]
  | suspendLwm2m | suspendMonitor | suspendMqtt =>
      cases c <;>
        simp [nextBlock, blockEffect, suspendedAfterPass, State.suspend, resumeBits]
  | ipAcquired =>
      cases ht : test value wifiNtpSyncTimer <;>
        cases hi : test value (IpState.v4Acquired.bits ||| IpState.v6Acquired.bits) <;>
          cases c <;>
            simp [nextBlock, blockEffect, suspendedAfterPass, State.resume, resumeBits, ht, hi]
  | ntpStop =>
      cases ha : s.timer.active <;> simp [nextBlock, blockEffect, suspendedAfterPass, ha]
  | ntpRequest | ntpNotify =>
      simp [nextBlock, blockEffect, suspendedAfterPass, State.notify]
  | ntpRestart answer =>
      by_cases hr : answer.rcode = .success <;>
        simp [nextBlock, blockEffect, suspendedAfterPass, hr]
  | ntpSynced =>
      cases hn : test value wifiNtpTimeSynced <;>
        cases c <;>
          simp [nextBlock, blockEffect, suspendedAfterPass, State.resume, resumeBits, hn]

/-- A statement of the pass keeps the invariant. -/
theorem SuspensionInv.block {s s' : State} {value : BitVec 32} {b : Block} {reply : Sntp.Reply}
    (h : SuspensionInv s) (hpc : s.pc = .running value b) (hs : wifiTask s reply = some s') :
    SuspensionInv s' := by
  obtain ⟨_, hlast, hnote⟩ := blockEffect_frame value reply s b
  have hnote' : SuspensionInv
      { s with notification := (blockEffect value reply s b).notification } := by
    rcases hnote with hsame | hset
    · simpa [hsame] using h
    · simpa [hset, State.notify] using h.notify (wifiNtpTimeSynced ||| wifiPendingState)
  have hidle : (blockEffect value reply s b).notification.received = false →
      (blockEffect value reply s b).notification.value = 0#32 := hnote'.idle
  have hout : test (blockEffect value reply s b).notification.value
      ConnectionState.disconnected.bits = false →
      s.LinkDown → ∀ c, suspendedAfterPass value c (s.task c).suspended b = true := by
    intro hdisc hdown c
    simpa [suspendedAfter, hpc] using hnote'.outcome hdisc hdown c
  have hdown : (blockEffect value reply s b).LinkDown ↔ s.LinkDown := by
    simp [State.LinkDown, hlast]
  have hafter := suspendedAfterPass_block value reply s b
  simp only [wifiTask, hpc] at hs
  cases hnext : nextBlock value reply b with
  | none =>
      simp only [hnext, Option.some.injEq] at hs hafter
      rw [wait_eq hidle] at hs
      subst hs
      refine ⟨hidle, fun hdisc hlink c => ?_⟩
      exact (hafter c).trans (hout hdisc (hdown.mp hlink) c)
  | some next =>
      simp only [hnext, Option.some.injEq] at hs hafter
      subst hs
      refine ⟨hidle, fun hdisc hlink c => ?_⟩
      exact (hafter c).trans (hout hdisc (hdown.mp hlink) c)

/-- Reading a value keeps the invariant unless it resumes a task while the link
is down. -/
theorem SuspensionInv.read {s s' : State} {reply : Sntp.Reply} (h : SuspensionInv s)
    (hpc : s.pc = .waiting) (hG : ReadsNoResume s (.task reply))
    (hs : wifiTask s reply = some s') : SuspensionInv s' := by
  simp only [wifiTask, hpc, Notification.leaveWait_allOnes] at hs
  split at hs
  · cases hs
    refine ⟨by simp, fun _ hdown c => ?_⟩
    obtain ⟨hip, hsynced⟩ := hG hpc hdown
    have hresume : test s.notification.value (resumeBits c) = false := by
      cases c with
      | lwm2m => exact hsynced
      | monitor => exact hip
      | mqtt => simp [resumeBits]
    simp only [suspendedAfter, suspendedAfterPass, hresume, Bool.not_false, Bool.true_and]
    cases hd : test s.notification.value ConnectionState.disconnected.bits with
    | true => rfl
    | false =>
        have hc := h.outcome hd hdown c
        simpa [suspendedAfter, hpc] using hc
  · cases hs

/-- A client that suspends itself at its start only adds to the suspended
tasks. -/
theorem suspendedAfterPass_mono {value : BitVec 32} {c : Client} {suspended : Bool} {b : Block}
    (h : suspendedAfterPass value c suspended b = true) :
    suspendedAfterPass value c true b = true := by
  cases suspended with
  | true => exact h
  | false => cases b <;> cases c <;> simp_all [suspendedAfterPass]

theorem SuspensionInv.taskStart {s : State} (h : SuspensionInv s) (client : Client) :
    SuspensionInv { s with task := Function.update s.task client ⟨true, true⟩ } := by
  refine ⟨h.idle, fun hdisc hdown c => ?_⟩
  have hc := h.outcome hdisc hdown c
  by_cases hcc : c = client
  · subst hcc
    cases hpc : s.pc <;> simp only [suspendedAfter, hpc, Function.update_self] at hc ⊢
    exact suspendedAfterPass_mono hc
  · cases hpc : s.pc <;>
      simpa [suspendedAfter, hpc, Function.update_of_ne hcc] using hc

/-- Every step that reads no resume keeps the invariant. -/
theorem SuspensionInv.step {s s' : State} {a : Action} (h : SuspensionInv s)
    (hG : ReadsNoResume s a) (hs : Wifi.step s a = some s') : SuspensionInv s' := by
  cases a with
  | wlan event =>
      cases event with
      | none => cases hs; exact h
      | some event => cases hs; exact h.wlan event
  | netApp event =>
      cases hs
      have hset : ∀ i : IpState, SuspensionInv { s with ip := i } := fun _ =>
        ⟨h.idle, h.outcome⟩
      cases event with
      | ipv4Acquired => exact (hset .v4Acquired).notify _
      | ipv6Acquired => exact (hset .v6Acquired).notify _
      | ipReleased => exact (hset .released).notify _
      | _ => exact h.notify _
  | timerExpiry =>
      simp only [Wifi.step] at hs
      split at hs
      · cases hs
        exact h.notify _
      · cases hs
  | taskStart client =>
      simp only [Wifi.step] at hs
      split at hs
      · cases hs
      · cases hs
        exact h.taskStart client
  | waitTimeout =>
      simp only [Wifi.step] at hs
      split at hs
      · rename_i hwait
        rw [wait_eq h.idle] at hs
        cases hs
        exact ⟨h.idle, by simpa [suspendedAfter, hwait.1, State.LinkDown] using h.outcome⟩
      · cases hs
  | task reply =>
      cases hpc : s.pc with
      | entry =>
          simp only [Wifi.step, wifiTask, hpc] at hs
          cases hs
          exact ⟨h.idle, by simpa [suspendedAfter, hpc, State.LinkDown] using h.outcome⟩
      | starting =>
          simp only [Wifi.step, wifiTask, hpc, Option.some.injEq] at hs
          rw [wait_eq (s := { s with pc := .starting, connection := .connecting }) h.idle] at hs
          cases hs
          exact ⟨h.idle, by simpa [suspendedAfter, hpc, State.LinkDown] using h.outcome⟩
      | waiting => exact h.read hpc hG hs
      | running value block => exact h.block hpc hs

/-! ## The result -/

/-- In every run that reads no IP-acquired and no NTP-synced bit while the link
is down, every client is suspended in every state in which the task waits with
nothing pending and the link down. -/
theorem clients_suspended_while_down {as : List Action}
    (hguard : machine.Guarded ReadsNoResume State.init as) :
    machine.Always SuspendedWhileDown State.init as :=
  Machine.always_of_guarded (fun _ _ _ h hG hs => SuspensionInv.step h hG hs)
    (fun _ h => h.suspendedWhileDown) SuspensionInv.initial hguard

/-- The link drops while the first sync is running and the sync fails. -/
theorem clients_suspended_while_down_firstSync :
    machine.Always SuspendedWhileDown State.init
      (firstSync ++ [.wlan (some .disconnect)] ++ List.replicate 11 (.task failedReply)) :=
  clients_suspended_while_down (by decide)

/-- The link drops while the first sync is running and the sync succeeds: the
task posts the synced bit to itself, reads it together with the disconnect, and
resumes the LWM2M task it has just suspended. -/
theorem sync_success_resumes_while_down :
    ¬ ∀ as : List Action, machine.Always SuspendedWhileDown State.init as := by
  intro h
  have hrun := h (firstSync ++ [.wlan (some .disconnect)] ++
    List.replicate 12 (.task ⟨.success, 16000, true⟩))
  revert hrun
  decide

end Uiso.Wifi
