/-
  Wifi/SyncInterval.lean --- from the poll interval of a reply to the period of the sync
  timer.

  The interval is a power of two of seconds in the server's entry, milliseconds in
  `*time_to_next_sync` and ticks in the timer.  The first two fit their words.  The last
  conversion multiplies by the tick rate in 32 bits first, and the lower bound of 12 hours
  alone is too long for that: the timer is armed for what is left of the product.
-/
import Uiso.Wifi.KissOfDeath

set_option autoImplicit false

namespace Uiso.Wifi

open Uiso.Foundation
open Uiso.Rtos
open Uiso.Sntp
open Uiso.Network (rev)

/-! ## The interval of a reply -/

/-- The poll byte of the reply, in the array the request was built in. -/
def pollByte (s : System) (a : Answers) : UInt8 :=
  (a.recvFrom.map fun d => (replyPacket s.world.rtc d).pollInterval).getD 0

/-- The exponent of the interval. -/
def pollExponent (s : System) (a : Answers) : Nat := clampPollInterval (pollByte s a)

theorem clampPollInterval_le (poll : UInt8) : clampPollInterval poll ≤ 17 := by
  unfold clampPollInterval
  split
  · omega
  · split <;> omega

/-- What a request that succeeds enters and returns. -/
theorem request_interval {s : System} {a : Answers} (h : (s.request a).1.rcode = .success) :
    ((s.request a).2.servers selectServerFromList).nextTimeStamp.toNat =
        ((s.request a).2.servers selectServerFromList).lastTimeStamp.toNat +
          2 ^ pollExponent s a ∧
      (s.request a).1.timeToNextSync = 2 ^ pollExponent s a * 1000 := by
  obtain ⟨d, time, date, hvalid, hsync⟩ := uisoSntpRequest_success h
  have hexponent :
      pollExponent s a = clampPollInterval (replyPacket s.world.rtc d).pollInterval := by
    rw [pollExponent, pollByte, hvalid.delivers.recvFrom]
    rfl
  have hle : 2 ^ pollExponent s a ≤ 2 ^ 17 :=
    Nat.pow_le_pow_right (by decide) (clampPollInterval_le _)
  have hword : (UInt32.ofNat (2 ^ pollExponent s a)).toNat = 2 ^ pollExponent s a :=
    UInt32.toNat_ofNat_of_lt' (Nat.lt_of_le_of_lt hle (by decide))
  have htime : time.toNat ≤ 0x7FFFFFFF := by
    obtain ⟨-, -, hrange, rfl⟩ := replyTimeStamp_eq_ok.mp hsync.reply
    exact UInt32.le_iff_toNat_le.mp hrange
  constructor
  · have hentry := hsync.entry
    rw [← hexponent] at hentry
    simp only [System.request, Function.update_self, hentry, Option.getD_some, UInt32.toNat_add,
      hword]
    omega
  · have hnext := hsync.next
    have h1000 : (1000 : UInt32).toNat = 1000 := rfl
    rw [← hexponent] at hnext
    simp only [System.request, hnext, Option.getD_some, UInt32.toNat_mul, hword, h1000]
    omega

/-! ## The armed period -/

/-- What `wifi_task` arms the timer with: at least the lower bound, in ticks. -/
theorem ntpRestart_timer (value : BitVec 32) (reply answer : Sntp.Reply) (s : State)
    (h : answer.rcode = .success) :
    (blockEffect value reply s (.ntpRestart answer)).timer =
      ⟨true, pdMsToTicks configTickRateHz (max answer.timeToNextSync wifiNtpSyncPeriod)⟩ := by
  have hmax : (if answer.timeToNextSync < wifiNtpSyncPeriod then wifiNtpSyncPeriod
      else answer.timeToNextSync) = max answer.timeToNextSync wifiNtpSyncPeriod := by
    split
    · rw [Nat.max_eq_right (by omega)]
    · rw [Nat.max_eq_left (by omega)]
  simp only [blockEffect, restartPeriod, h, if_true, hmax]
  rfl

/-- The lower bound is too long for the conversion, and so is every longer interval. -/
theorem pdMsToTicks_syncPeriod_ne {ms : Nat} (h : wifiNtpSyncPeriod ≤ ms) :
    pdMsToTicks configTickRateHz ms ≠ ms * configTickRateHz / 1000 := by
  rw [ne_eq, pdMsToTicks_eq_iff]
  unfold wifiNtpSyncPeriod at h
  unfold configTickRateHz
  omega

/-- While `wifi_task` is in a pass, what else happens leaves it there, and leaves the SNTP
data. -/
theorem events_keep {s t : System} {value : BitVec 32} {block : Block} {events : List Action}
    (hpc : s.wifi.pc = .running value block)
    (hrun : systemMachine.run s (events.map .event) = some t) :
    t.wifi.pc = .running value block ∧ t.servers = s.servers := by
  induction events generalizing s with
  | nil =>
      cases hrun
      exact ⟨hpc, rfl⟩
  | cons event events ih =>
      obtain ⟨s', hstep, hrest⟩ := Machine.run_uncons hrun
      have hkept : s'.wifi.pc = s.wifi.pc ∧ s'.servers = s.servers := by
        cases event <;> simp only [systemMachine, System.step, Wifi.step] at hstep
        case wlan event =>
          cases event <;> cases hstep
          · exact ⟨rfl, rfl⟩
          · rename_i event
            cases event <;> exact ⟨rfl, rfl⟩
        case netApp event =>
          cases hstep
          cases event <;> exact ⟨rfl, rfl⟩
        case timerExpiry =>
          split at hstep <;> cases hstep
          exact ⟨rfl, rfl⟩
        case taskStart =>
          split at hstep <;> cases hstep
          exact ⟨rfl, rfl⟩
        case waitTimeout =>
          simp [hpc] at hstep
        case task => cases hstep
      obtain ⟨hpc', hservers⟩ := ih (hkept.1.trans hpc) hrest
      exact ⟨hpc', hservers.trans hkept.2⟩

/-- After a request that succeeds, answered in `s` with `a`, the interval is in the server's
entry and in `*time_to_next_sync` without a wrap. -/
structure Entered (s : System) (a : Answers) (t : System) : Prop where
  entry : (t.servers selectServerFromList).nextTimeStamp.toNat =
    (t.servers selectServerFromList).lastTimeStamp.toNat + 2 ^ pollExponent s a
  interval : (s.request a).1.timeToNextSync = 2 ^ pollExponent s a * 1000

/-- The interval is entered, and the sync timer is armed for it or for 12 hours, whichever is
longer. -/
structure Scheduled (s : System) (a : Answers) (t : System) : Prop extends Entered s a t where
  period : t.wifi.timer = ⟨true, max (2 ^ pollExponent s a) (12 * 3600) * configTickRateHz⟩

/-- From the call of `uiso_sntp_request` to the end of the statement that restarts the timer:
the request is answered with `a`, other things happen, and `wifi_task` goes on. -/
def requestRun (a b : Answers) (events : List Action) : List Label :=
  .task a :: (events.map .event ++ [.task b])

/-- The state behind the statement that restarts the timer. -/
theorem requestRun_inv {s t : System} {value : BitVec 32} {a b : Answers} {events : List Action}
    (hpc : s.wifi.pc = .running value .ntpRequest)
    (hrun : systemMachine.run s (requestRun a b events) = some t) :
    t.servers = (s.request a).2.servers ∧
      ∃ w : State, t.wifi.timer =
        (blockEffect value default w (.ntpRestart (s.request a).1)).timer := by
  obtain ⟨s₁, hrequest, hrun⟩ := Machine.run_uncons hrun
  rw [Machine.run_append_bind, Option.bind_eq_some_iff] at hrun
  obtain ⟨s₂, hevents, hrun⟩ := hrun
  obtain ⟨s₃, hrestart, hrun⟩ := Machine.run_uncons hrun
  cases hrun
  simp only [systemMachine, System.step, hpc, Pc.atRequest, if_true, wifiTask, nextBlock,
    Option.map_some, Option.some.injEq] at hrequest
  have hpc₁ : s₁.wifi.pc = .running value (.ntpRestart (s.request a).1) := by rw [← hrequest]
  have hservers₁ : s₁.servers = (s.request a).2.servers := by rw [← hrequest]
  obtain ⟨hpc₂, hservers₂⟩ := events_keep hpc₁ hevents
  simp only [systemMachine, System.step, hpc₂, Pc.atRequest, Bool.false_eq_true, if_false,
    Option.map_eq_some_iff] at hrestart
  obtain ⟨w, hw, rfl⟩ := hrestart
  refine ⟨hservers₂.trans hservers₁, s₂.wifi, ?_⟩
  simp only [wifiTask, hpc₂, nextBlock] at hw
  by_cases hsuccess : (s.request a).1.rcode = .success
  · rw [if_pos hsuccess] at hw
    rw [← Option.some.inj hw]
  · rw [if_neg hsuccess] at hw
    rw [← Option.some.inj hw]

/-- After every request that succeeds the interval is entered, and the timer is armed for what
32 bits leave of its ticks: it is never scheduled. -/
theorem sync_interval_never_scheduled (s t : System) (value : BitVec 32) (a b : Answers)
    (events : List Action) (hpc : s.wifi.pc = .running value .ntpRequest)
    (hrun : systemMachine.run s (requestRun a b events) = some t)
    (hsuccess : (s.request a).1.rcode = .success) :
    Entered s a t ∧
      t.wifi.timer = ⟨true, max (2 ^ pollExponent s a) (12 * 3600) * 1000 * 1000 % 2 ^ 32 / 1000⟩ ∧
      ¬Scheduled s a t := by
  obtain ⟨hservers, w, htimer⟩ := requestRun_inv hpc hrun
  obtain ⟨hentry, hinterval⟩ := request_interval hsuccess
  rw [ntpRestart_timer value _ _ w hsuccess, hinterval] at htimer
  have hms : max (2 ^ pollExponent s a * 1000) wifiNtpSyncPeriod =
      max (2 ^ pollExponent s a) (12 * 3600) * 1000 := by
    unfold wifiNtpSyncPeriod
    omega
  have hlong : wifiNtpSyncPeriod ≤ max (2 ^ pollExponent s a) (12 * 3600) * 1000 :=
    hms ▸ Nat.le_max_right _ _
  rw [hms] at htimer
  refine ⟨⟨hservers ▸ hentry, hinterval⟩, htimer, ?_⟩
  intro hscheduled
  have hperiod := congrArg Timer.period (htimer.symm.trans hscheduled.period)
  refine pdMsToTicks_syncPeriod_ne hlong (hperiod.trans ?_)
  dsimp only [configTickRateHz]
  omega

/-- A reply to a request made at the Unix time 1700000000, with poll byte 0. -/
def sampleAnswers : Answers :=
  answersWith 0x0A000001 (serverReply (rev 0x0A000001) 0x24 2 3908988800 3908988810)

/-- The device joins the network and its first sync is due. -/
def joinRun : List Label :=
  -- up to the first wait, then the pass over the connect bit
  List.replicate 2 (.task sampleAnswers) ++ [.event (.wlan (some .connect))] ++
    List.replicate 5 (.task sampleAnswers) ++
    -- the pass over the sync-timer bit, up to the request
    [.event .timerExpiry] ++ List.replicate 5 (.task sampleAnswers)

/-- The system before its first request. -/
def sampleSystem : System :=
  (systemMachine.run (.init 1700000000) joinRun).getD (.init 1700000000)

theorem sync_interval_never_scheduled_first :
    ∃ t, systemMachine.run sampleSystem (requestRun sampleAnswers sampleAnswers []) = some t ∧
      Entered sampleSystem sampleAnswers t ∧ ¬Scheduled sampleSystem sampleAnswers t := by
  have hsome : (systemMachine.run sampleSystem
      (requestRun sampleAnswers sampleAnswers [])).isSome = true := by
    decide +kernel
  obtain ⟨t, ht⟩ := Option.isSome_iff_exists.mp hsome
  obtain ⟨hentered, -, hnever⟩ := sync_interval_never_scheduled sampleSystem t
    (wifiNtpSyncTimer ||| wifiPendingState) sampleAnswers sampleAnswers [] (by decide +kernel) ht
    (by decide +kernel)
  exact ⟨t, ht, hentered, hnever⟩

/-- The timer is armed for four minutes instead of 12 hours. -/
theorem sync_interval_cut :
    ¬∀ (s t : System) (value : BitVec 32) (a b : Answers) (events : List Action),
      s.wifi.pc = .running value .ntpRequest →
      systemMachine.run s (requestRun a b events) = some t →
      (s.request a).1.rcode = .success → Scheduled s a t := by
  intro h
  have harmed : (systemMachine.run sampleSystem
      (requestRun sampleAnswers sampleAnswers [])).map (·.wifi.timer.period) = some 250327 := by
    decide +kernel
  obtain ⟨t, ht, hperiod⟩ := Option.map_eq_some_iff.mp harmed
  have hscheduled := (h sampleSystem t (wifiNtpSyncTimer ||| wifiPendingState) sampleAnswers
    sampleAnswers [] (by decide +kernel) ht (by decide +kernel)).period
  rw [hscheduled] at hperiod
  have hlong := Nat.le_max_right (2 ^ pollExponent sampleSystem sampleAnswers) (12 * 3600)
  dsimp only [configTickRateHz] at hperiod
  omega

end Uiso.Wifi
