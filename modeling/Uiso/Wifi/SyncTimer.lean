/-
  Wifi/SyncTimer.lean --- when the SNTP sync timer follows the WLAN link.

  One notification value merges everything that happened since the last wait,
  so the order of the events in it is lost and the order of the if-blocks
  decides: the connect block starts the timer, the disconnect block stops it,
  the sync-timer block starts it again.  `timerAfter` is what the blocks still
  to come make of the timer; it is the quantity the invariant follows through a
  pass.
-/
import Uiso.Wifi.Task

set_option autoImplicit false

namespace Uiso.Wifi

open Uiso.Foundation
open Uiso.Rtos

/-- Whether the sync timer is active at the end of the pass over `value`, when
`active` says whether it is before the given statement. -/
def timerAfterPass (value : BitVec 32) (active : Bool) : Block → Bool
  | .connected =>
      test value wifiNtpSyncTimer ||
        (!test value ConnectionState.disconnected.bits &&
          (test value ConnectionState.connected.bits || active))
  | .stopTimer =>
      test value wifiNtpSyncTimer || (!test value ConnectionState.disconnected.bits && active)
  | .suspendLwm2m | .suspendMonitor | .suspendMqtt | .ipAcquired =>
      test value wifiNtpSyncTimer || active
  | .ntpStop | .ntpRequest | .ntpRestart _ => true
  | .ntpNotify | .ntpSynced => active

/-- Whether the sync timer is active when `wifi_task` next waits, if nothing
else happens. -/
def timerAfter (s : State) : Bool :=
  match s.pc with
  | .running value block => timerAfterPass value s.timer.active block
  | _ => s.timer.active

/-- `sntp_sync_timer` is active exactly when the most recent WLAN connection
event was a connect, whenever the task waits with nothing pending. -/
def TimerFollowsLink (s : State) : Prop :=
  s.pc = .waiting → s.notification.received = false →
    (s.timer.active = true ↔ s.lastEvent = some .connect)

/-- The condition on a read of the notification value: a value with the
sync-timer bit is read only while the link is up, and a value with the
disconnect bit (and no sync-timer bit) only while it is down. -/
def ReadsInOrder (s : State) : Action → Prop
  | .task _ => s.pc = .waiting →
      (test s.notification.value wifiNtpSyncTimer = true →
        s.lastEvent = some .connect) ∧
      (test s.notification.value ConnectionState.disconnected.bits = true →
        test s.notification.value wifiNtpSyncTimer = false →
          s.lastEvent ≠ some .connect)
  | _ => True

instance (s : State) : Decidable (TimerFollowsLink s) :=
  inferInstanceAs (Decidable (_ → _ → _))

instance (s : State) : ∀ a : Action, Decidable (ReadsInOrder s a)
  | .task _ => inferInstanceAs (Decidable (_ → _ ∧ _))
  | .wlan _ | .netApp _ | .timerExpiry | .taskStart _ | .waitTimeout => .isTrue trivial

/-! ## The invariant -/

/-- What holds of every state of a run whose reads are in order. -/
structure TimerInv (s : State) : Prop where
  /-- without a received notification no bit is left over -/
  idle : s.notification.received = false → s.notification.value = 0#32
  /-- the recorded status is `connected` only while the link is up -/
  status : s.connection = .connected → s.lastEvent = some .connect
  /-- a lone connect bit stands for a link that is up -/
  pending : test s.notification.value ConnectionState.connected.bits = true →
    test s.notification.value ConnectionState.disconnected.bits = false →
      s.lastEvent = some .connect
  /-- with no connection bit pending, the rest of the pass leaves the timer as
  the link is -/
  outcome : test s.notification.value ConnectionState.connected.bits = false →
    test s.notification.value ConnectionState.disconnected.bits = false →
      (timerAfter s = true ↔ s.lastEvent = some .connect)

theorem TimerInv.initial : TimerInv State.init where
  idle := fun _ => rfl
  status := by simp [State.init]
  pending := by simp [State.init, Notification.none]
  outcome := by simp [State.init, timerAfter]

theorem TimerInv.followsLink {s : State} (h : TimerInv s) : TimerFollowsLink s := by
  intro hpc hreceived
  have hvalue := h.idle hreceived
  have hout := h.outcome (by simp [hvalue]) (by simp [hvalue])
  simpa [timerAfter, hpc] using hout

/-- Posting bits that are no connection bits changes nothing for the timer. -/
theorem TimerInv.notify {s : State} (h : TimerInv s) (bits : BitVec 32)
    (hconn : test bits ConnectionState.connected.bits = false)
    (hdisc : test bits ConnectionState.disconnected.bits = false) :
    TimerInv (s.notify bits) where
  idle := by simp [State.notify]
  status := h.status
  pending := by simpa [State.notify, hconn, hdisc] using h.pending
  outcome := by simpa [State.notify, hconn, hdisc, timerAfter] using h.outcome

/-- Connection bits of a status are the status's own. -/
theorem test_connection_bits (c : ConnectionState) :
    test (c.bits ||| wifiPendingState) ConnectionState.connected.bits = decide (c = .connected) ∧
    test (c.bits ||| wifiPendingState) ConnectionState.disconnected.bits =
      decide (c = .disconnected) := by
  cases c <;> decide

theorem TimerInv.wlan {s : State} (h : TimerInv s) (event : WlanEvent) :
    TimerInv (wlanEvtHdlr s event) := by
  have hbits := test_connection_bits
  cases event with
  | connect =>
      refine ⟨by simp [wlanEvtHdlr, State.notify], fun _ => rfl, fun _ _ => rfl, ?_⟩
      simp [wlanEvtHdlr, State.notify, hbits]
  | disconnect =>
      refine ⟨by simp [wlanEvtHdlr, State.notify], by simp [wlanEvtHdlr, State.notify], ?_, ?_⟩
      all_goals simp [wlanEvtHdlr, State.notify, hbits]
  | connectionFailed =>
      refine ⟨by simp [wlanEvtHdlr, State.notify], by simp [wlanEvtHdlr, State.notify], ?_, ?_⟩
      all_goals simp [wlanEvtHdlr, State.notify, hbits]
  | _ =>
      -- the other events repeat the recorded status
      refine ⟨by simp [wlanEvtHdlr, State.notify], h.status, ?_, ?_⟩
      · intro hconn hdisc
        simp only [wlanEvtHdlr, State.notify, Notification.setBits_value] at hconn hdisc
        rw [test_or, Bool.or_eq_true] at hconn
        rw [test_or, Bool.or_eq_false_iff] at hdisc
        rcases hconn with hold | hnew
        · exact h.pending hold hdisc.1
        · exact h.status (by simpa [(hbits s.connection).1] using hnew)
      · intro hconn hdisc
        simp only [wlanEvtHdlr, State.notify, Notification.setBits_value] at hconn hdisc
        rw [test_or, Bool.or_eq_false_iff] at hconn hdisc
        simpa [wlanEvtHdlr, State.notify, timerAfter] using h.outcome hconn.1 hdisc.1

/-! ## The task's own steps -/

/-- One statement of the pass does to the timer what `timerAfterPass` says. -/
theorem timerAfterPass_block (value : BitVec 32) (reply : Sntp.Reply) (s : State) (b : Block) :
    (match nextBlock value reply b with
      | some next => timerAfterPass value (blockEffect value reply s b).timer.active next
      | none => (blockEffect value reply s b).timer.active) =
      timerAfterPass value s.timer.active b := by
  cases b with
  | connected =>
      cases hc : test value ConnectionState.connected.bits <;>
        simp [nextBlock, blockEffect, timerAfterPass, hc]
  | stopTimer =>
      cases hd : test value ConnectionState.disconnected.bits <;>
        cases ha : s.timer.active <;>
          simp [nextBlock, blockEffect, timerAfterPass, hd, ha]
  | suspendLwm2m | suspendMonitor | suspendMqtt =>
      simp [nextBlock, blockEffect, timerAfterPass, State.suspend]
  | ipAcquired =>
      have htimer : (blockEffect value reply s .ipAcquired).timer = s.timer := by
        simp only [blockEffect]
        split <;> rfl
      cases ht : test value wifiNtpSyncTimer <;>
        simp [nextBlock, timerAfterPass, ht, htimer]
  | ntpStop => simp [nextBlock, timerAfterPass]
  | ntpRequest => simp [nextBlock, timerAfterPass]
  | ntpRestart answer =>
      by_cases hr : answer.rcode = .success <;>
        simp [nextBlock, blockEffect, timerAfterPass, hr]
  | ntpNotify => simp [nextBlock, blockEffect, timerAfterPass, State.notify]
  | ntpSynced =>
      simp only [nextBlock, blockEffect, timerAfterPass]
      split <;> simp [State.resume]

/-- The statements of a pass touch neither the recorded status nor the ghost
event, and post no connection bit. -/
theorem blockEffect_frame (value : BitVec 32) (reply : Sntp.Reply) (s : State) (b : Block) :
    (blockEffect value reply s b).connection = s.connection ∧
    (blockEffect value reply s b).lastEvent = s.lastEvent ∧
    ((blockEffect value reply s b).notification = s.notification ∨
      (blockEffect value reply s b).notification =
        s.notification.setBits (wifiNtpTimeSynced ||| wifiPendingState)) := by
  cases b <;> simp only [blockEffect] <;> (try split) <;>
    simp [State.suspend, State.resume, State.notify]

/-- Entering the wait changes only where the task is. -/
theorem wait_eq {s : State}
    (h : s.notification.received = false → s.notification.value = 0#32) :
    s.wait = { s with pc := .waiting } := by
  simp only [State.wait, Notification.enterWait_eq_self h]

/-- A statement of the pass keeps the invariant. -/
theorem TimerInv.block {s s' : State} {value : BitVec 32} {b : Block} {reply : Sntp.Reply}
    (h : TimerInv s) (hpc : s.pc = .running value b) (hs : wifiTask s reply = some s') :
    TimerInv s' := by
  obtain ⟨hconn, hlast, hnote⟩ := blockEffect_frame value reply s b
  have hafter := timerAfterPass_block value reply s b
  -- the statement may post the synced bit, which is no connection bit
  have hnote' : TimerInv { s with notification := (blockEffect value reply s b).notification } := by
    rcases hnote with hsame | hset
    · simpa [hsame] using h
    · simpa [hset, State.notify] using
        h.notify (wifiNtpTimeSynced ||| wifiPendingState) (by decide) (by decide)
  have hidle : (blockEffect value reply s b).notification.received = false →
      (blockEffect value reply s b).notification.value = 0#32 := hnote'.idle
  have hpending := hnote'.pending
  have hout := hnote'.outcome
  have hthere : timerAfter { s with notification := (blockEffect value reply s b).notification } =
      timerAfterPass value s.timer.active b := by
    simp [timerAfter, hpc]
  simp only [wifiTask, hpc] at hs
  rw [hthere, ← hafter] at hout
  cases hnext : nextBlock value reply b with
  | none =>
      simp only [hnext, Option.some.injEq] at hs hout
      rw [wait_eq hidle] at hs
      subst hs
      exact ⟨hidle, by simpa [hconn, hlast] using h.status, by simpa [hlast] using hpending,
        by simpa [hlast, timerAfter] using hout⟩
  | some next =>
      simp only [hnext, Option.some.injEq] at hs hout
      subst hs
      exact ⟨hidle, by simpa [hconn, hlast] using h.status, by simpa [hlast] using hpending,
        by simpa [hlast, timerAfter] using hout⟩

/-- Reading a value in order keeps the invariant: the pass over it will leave
the timer as the link is at the time of the read. -/
theorem TimerInv.read {s s' : State} {reply : Sntp.Reply} (h : TimerInv s)
    (hpc : s.pc = .waiting) (hG : ReadsInOrder s (.task reply))
    (hs : wifiTask s reply = some s') : TimerInv s' := by
  simp only [wifiTask, hpc, Notification.leaveWait_allOnes] at hs
  split at hs
  · cases hs
    refine ⟨by simp, h.status, by simp, fun _ _ => ?_⟩
    obtain ⟨htimer, hdisc⟩ := hG hpc
    have hpending := h.pending
    have hout := h.outcome
    simp only [timerAfter, hpc] at hout
    simp only [timerAfter, timerAfterPass]
    cases ht : test s.notification.value wifiNtpSyncTimer with
    | true => simp [htimer ht]
    | false =>
        cases hd : test s.notification.value ConnectionState.disconnected.bits with
        | true => simp [hdisc hd ht]
        | false =>
            cases hc : test s.notification.value ConnectionState.connected.bits with
            | true => simp [hpending hc hd]
            | false => simpa using hout hc hd
  · cases hs

/-- Every step whose read is in order keeps the invariant. -/
theorem TimerInv.step {s s' : State} {a : Action} (h : TimerInv s) (hG : ReadsInOrder s a)
    (hs : Wifi.step s a = some s') : TimerInv s' := by
  cases a with
  | wlan event =>
      cases event with
      | none => cases hs; exact h
      | some event => cases hs; exact h.wlan event
  | netApp event =>
      cases hs
      have hbits : ∀ i : IpState,
          test (i.bits ||| wifiPendingState) ConnectionState.connected.bits = false ∧
          test (i.bits ||| wifiPendingState) ConnectionState.disconnected.bits = false := by
        intro i
        cases i <;> decide
      have hset : ∀ i : IpState, TimerInv { s with ip := i } := fun _ =>
        ⟨h.idle, h.status, h.pending, h.outcome⟩
      cases event with
      | ipv4Acquired => exact (hset .v4Acquired).notify _ (hbits _).1 (hbits _).2
      | ipv6Acquired => exact (hset .v6Acquired).notify _ (hbits _).1 (hbits _).2
      | ipReleased => exact (hset .released).notify _ (hbits _).1 (hbits _).2
      | _ => exact h.notify _ (hbits _).1 (hbits _).2
  | timerExpiry =>
      simp only [Wifi.step] at hs
      split at hs
      · cases hs
        exact h.notify _ (by decide) (by decide)
      · cases hs
  | taskStart client =>
      simp only [Wifi.step] at hs
      split at hs
      · cases hs
      · cases hs
        exact ⟨h.idle, h.status, h.pending, h.outcome⟩
  | waitTimeout =>
      simp only [Wifi.step] at hs
      split at hs
      · rename_i hwait
        rw [wait_eq h.idle] at hs
        cases hs
        exact ⟨h.idle, h.status, h.pending, by simpa [timerAfter, hwait.1] using h.outcome⟩
      · cases hs
  | task reply =>
      cases hpc : s.pc with
      | entry =>
          simp only [Wifi.step, wifiTask, hpc] at hs
          cases hs
          exact ⟨h.idle, by simp, h.pending, by simpa [timerAfter, hpc] using h.outcome⟩
      | starting =>
          simp only [Wifi.step, wifiTask, hpc, Option.some.injEq] at hs
          rw [wait_eq (s := { s with pc := .starting, connection := .connecting }) h.idle] at hs
          cases hs
          exact ⟨h.idle, by simp, h.pending, by simpa [timerAfter, hpc] using h.outcome⟩
      | waiting => exact h.read hpc hG hs
      | running value block => exact h.block hpc hs

/-! ## The result -/

/-- In every run in which each notification value is read in order, the sync
timer follows the link in every state. -/
theorem syncTimer_follows_link {as : List Action}
    (hguard : machine.Guarded ReadsInOrder State.init as) :
    machine.Always TimerFollowsLink State.init as :=
  Machine.always_of_guarded (I := TimerInv) (fun _ _ _ h hG hs => h.step hG hs)
    (fun _ h => h.followsLink) TimerInv.initial hguard

/-- A request that fails, for the runs below. -/
def failedReply : Sntp.Reply := ⟨.serverIpError, 0, false⟩

/-- The device starts, joins the network, and the first sync is due: `wifi_task`
has entered `uiso_sntp_request`. -/
def firstSync : List Action :=
  [.taskStart .lwm2m, .taskStart .monitor, .taskStart .mqtt] ++
    -- up to the first wait, then the pass over the connect bit
    List.replicate 2 (.task failedReply) ++ [.wlan (some .connect)] ++
    List.replicate 5 (.task failedReply) ++
    -- the pass over the sync-timer bit, up to the request
    [.timerExpiry] ++ List.replicate 5 (.task failedReply)

/-- The sync fails and is over before anything else happens. -/
theorem syncTimer_follows_link_firstSync :
    machine.Always TimerFollowsLink State.init
      (firstSync ++ List.replicate 3 (.task failedReply)) :=
  syncTimer_follows_link (by decide)

/-- While the request is running the link drops and comes back.  The pass over
the merged value starts the timer and then stops it: the device is connected
and no sync is scheduled. -/
theorem reconnect_during_sync_stops_timer :
    ¬ ∀ as : List Action, machine.Always TimerFollowsLink State.init as := by
  intro h
  have hrun := h (firstSync ++ [.wlan (some .disconnect), .wlan (some .connect)] ++
    List.replicate 11 (.task failedReply))
  revert hrun
  decide

end Uiso.Wifi
