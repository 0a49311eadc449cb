/-
  Mbedtls/Timing.lean --- the timer mbedTLS asks for the delays of a DTLS
  handshake (src/mbedtls_adapter/uiso_timing.c).

  The context holds two one-shot FreeRTOS timers and one state word, which the
  timer callback and set_delay write and get_delay returns.  Milliseconds are
  ticks: configTICK_RATE_HZ is 1000 and the delays are passed on unconverted.

  The callbacks run in the timer task, so a tick or an expiry may fall between any two
  statements of set_delay.  Each of them is a step of its own (`Statement`), and the state
  word is the last thing the call writes: an expiry of the timers it has just armed is
  lost when it comes before that.

  A call goes through stages (`InCall`): the old timers are stopped, the new ones armed,
  the state word stored.  Once it has returned the context goes through at most three
  phases (`Phase`): both timers running, the first one expired, none left.  Which value
  get_delay returns in each is read off there; the contract then holds of a pair of
  delays exactly when the phases' values are the ones it asks for.
-/
import Uiso.Rtos.TimerService

set_option autoImplicit false

namespace Uiso.Mbedtls

open Uiso.Foundation
open Uiso.Rtos

/-! ## uiso_timing.c -/

/-- The two timers of a `uiso_mbedtls_timing_delay_t`. -/
inductive DelayTimer where
  | intTimer
  | finTimer
  deriving DecidableEq, Repr

/-- The values of the state word, with their names in the source. -/
def timerCancelled : Int := -1

def timerNormal : Int := 0

def timerIntermediatePassed : Int := 1

def timerFinalDelayPassed : Int := 2

/-- A call of `set_delay`: when it was made and its two arguments. -/
structure Delay where
  time : Nat
  intMs : Nat
  finMs : Nat
  deriving DecidableEq, Repr

/-- The statements of `set_delay`. -/
inductive Statement where
  /-- `if (pdTRUE == xTimerIsTimerActive(timer)) xTimerStop(timer)`; an expiry between
  the test and the stop is one before the test -/
  | stopIfActive (timer : DelayTimer)
  /-- `xTimerChangePeriod` -/
  | changePeriod (timer : DelayTimer) (ticks : Nat)
  /-- the assignment of the state word -/
  | store (value : Int)
  deriving DecidableEq, Repr

/-- A timing context: the timer service its two timers live in, its state word and what is
left of a call of `set_delay` that has not returned.  `last` is not part of the source: it
records the last call. -/
structure TimingState where
  service : TimerService DelayTimer
  state : Int
  call : List Statement
  last : Option Delay
  deriving DecidableEq, Repr

/-- `timer_callback`.  Its third branch is for a timer that is neither of the two; the
context is the timer id of these two only. -/
def timerCallback (timer : DelayTimer) (s : TimingState) : TimingState :=
  match timer with
  | .intTimer => { s with state := timerIntermediatePassed }
  | .finTimer => { s with state := timerFinalDelayPassed }

/-- `if (pdTRUE == xTimerIsTimerActive(timer)) xTimerStop(timer)`. -/
def stopIfActive (timer : DelayTimer) (service : TimerService DelayTimer) :
    TimerService DelayTimer :=
  if service.isTimerActive timer then service.stop timer else service

/-- What a statement does. -/
def Statement.exec (s : TimingState) : Statement → TimingState
  | .stopIfActive timer => { s with service := Mbedtls.stopIfActive timer s.service }
  | .changePeriod timer ticks => { s with service := s.service.changePeriod timer ticks }
  | .store value => { s with state := value }

/-- The statements that arm the timers.  The second one passes `int_ms` for the final
timer, as the source does. -/
def Delay.arming (d : Delay) : List Statement :=
  (if d.intMs > 0 then [.changePeriod .intTimer d.intMs] else []) ++
    (if d.finMs > 0 then [.changePeriod .finTimer d.intMs] else [])

/-- The value the state word is given. -/
def Delay.startValue (d : Delay) : Int := if d.finMs = 0 then timerCancelled else timerNormal

/-- The body of `uiso_mbedtls_timing_set_delay`. -/
def Delay.body (d : Delay) : List Statement :=
  .stopIfActive .intTimer :: .stopIfActive .finTimer :: (d.arming ++ [.store d.startValue])

/-- `uiso_mbedtls_timing_set_delay` is entered. -/
def setDelay (intMs finMs : Nat) (s : TimingState) : TimingState :=
  { s with
    call := Delay.body ⟨s.service.now, intMs, finMs⟩
    last := some ⟨s.service.now, intMs, finMs⟩ }

/-- `uiso_mbedtls_timing_get_delay`. -/
def getDelay (s : TimingState) : Int := s.state

/-! ## Time, expiries and calls -/

/-- What can happen to a context: `set_delay` is called, runs its next statement, a tick,
the expiry of the first due timer. -/
inductive TimingAction where
  | setDelay (intMs finMs : Nat)
  | statement
  | tick
  | expire
  deriving DecidableEq, Repr

/-- One step. -/
def timingStep (s : TimingState) : TimingAction → Option TimingState
  | .setDelay intMs finMs => if s.call = [] then some (setDelay intMs finMs s) else none
  | .statement =>
      match s.call with
      | [] => none
      | statement :: rest => some (statement.exec { s with call := rest })
  | .tick => s.service.tick.map (fun service => { s with service := service })
  | .expire =>
      s.service.expire.map (fun (timer, service) =>
        timerCallback timer { s with service := service })

/-- The context with the passage of time, the expiries and the calls of its user. -/
def timing : Machine TimingState TimingAction := ⟨timingStep⟩

/-- The step is not a call of `set_delay`. -/
def TimingAction.isEvent : TimingAction → Bool
  | .setDelay _ _ => false
  | .statement => true
  | .tick => true
  | .expire => true

/-- The delays mbedTLS passes: final delay zero, or a positive intermediate delay that
does not exceed it. -/
def LegalDelay (intMs finMs : Nat) : Prop := finMs = 0 ∨ (0 < intMs ∧ intMs ≤ finMs)

instance (intMs finMs : Nat) : Decidable (LegalDelay intMs finMs) :=
  inferInstanceAs (Decidable (_ ∨ _))

/-- The value mbedTLS requires `t` ms after a call with delays `d`; nothing is required
at the instants `intMs` and `finMs` themselves. -/
def Delay.Requires (d : Delay) (t : Nat) (value : Int) : Prop :=
  (d.finMs = 0 → value = -1) ∧ (d.finMs ≠ 0 → t < d.intMs → value = 0) ∧
    (d.intMs < t → t < d.finMs → value = 1) ∧ (d.finMs ≠ 0 → d.finMs < t → value = 2)

instance (d : Delay) (t : Nat) (value : Int) : Decidable (d.Requires t value) :=
  inferInstanceAs (Decidable (_ ∧ _ ∧ _ ∧ _))

/-- `get_delay` returns what is required at this moment. -/
def Conforms (s : TimingState) : Prop :=
  ∀ d, s.last = some d → d.Requires (s.service.now - d.time) (getDelay s)

instance (s : TimingState) : Decidable (Conforms s) :=
  match h : s.last with
  | none => .isTrue (by simp [Conforms, h])
  | some d =>
      decidable_of_iff (d.Requires (s.service.now - d.time) (getDelay s))
        (by simp [Conforms, h])

/-- The step does not decrease the value. -/
def NotDecreasing (s : TimingState) (a : TimingAction) : Prop :=
  ∀ s', timing.step s a = some s' → getDelay s ≤ getDelay s'

/-- The contract along a list of events: the required value is returned at every moment,
and the value never decreases. -/
def Contract (s : TimingState) (events : List TimingAction) : Prop :=
  timing.Always Conforms s events ∧ timing.Guarded NotDecreasing s events

/-- The contract from the return of a call on, until the next one.  What may happen while
the call runs is `inside`. -/
def KeepsContract (inside : TimingAction → Prop) (intMs finMs : Nat) (s : TimingState) : Prop :=
  ∀ (during : List TimingAction) (t : TimingState),
    (∀ a ∈ during, a.isEvent = true ∧ inside a) →
    timing.run (setDelay intMs finMs s) during = some t → t.call = [] →
    ∀ events : List TimingAction, (∀ a ∈ events, a.isEvent = true) → Contract t events

/-! ## The timers after a call -/

theorem stopIfActive_eq_stop (timer : DelayTimer) (service : TimerService DelayTimer) :
    stopIfActive timer service = service.stop timer := by
  unfold stopIfActive
  split
  · rfl
  · rename_i h
    exact (TimerService.stop_eq_self (by simpa using h)).symm

@[simp] theorem stopIfActive_now (timer : DelayTimer) (service : TimerService DelayTimer) :
    (stopIfActive timer service).now = service.now := by
  rw [stopIfActive_eq_stop, TimerService.stop_now]

/-- The timers a call starts, in the order in which they expire: both at the
intermediate delay. -/
def Delay.armed (d : Delay) : List (Nat × DelayTimer) :=
  if d.intMs = 0 then []
  else (d.time + d.intMs, .intTimer) ::
    (if d.finMs = 0 then [] else [(d.time + d.intMs, .finTimer)])

/-! ## The phases after a call -/

/-- The value of the state word once every timer of the call has expired. -/
def Delay.endValue (d : Delay) : Int :=
  if d.intMs = 0 then timerCancelled
  else if d.finMs = 0 then timerIntermediatePassed else timerFinalDelayPassed

/-- Where a context stands once the call `d` has returned: the timers it still has and the
value of the state word. -/
inductive Phase (d : Delay) : TimingState → Prop
  /-- The timers of the call are running. -/
  | running {s : TimingState} (harmed : s.service.active = d.armed)
      (hpos : 0 < d.intMs) (hfrom : d.time ≤ s.service.now)
      (hto : s.service.now ≤ d.time + d.intMs) (hvalue : s.state = d.startValue)
      (hcall : s.call = []) (hlast : s.last = some d) : Phase d s
  /-- The intermediate timer has expired, the final one is due. -/
  | between {s : TimingState}
      (hactive : s.service.active = [(d.time + d.intMs, .finTimer)])
      (hpos : 0 < d.intMs) (hfin : 0 < d.finMs) (hnow : s.service.now = d.time + d.intMs)
      (hvalue : s.state = timerIntermediatePassed) (hcall : s.call = [])
      (hlast : s.last = some d) : Phase d s
  /-- No timer of the call is left. -/
  | expired {s : TimingState} (hactive : s.service.active = [])
      (hnow : d.time + d.intMs ≤ s.service.now) (hvalue : s.state = d.endValue)
      (hcall : s.call = []) (hlast : s.last = some d) : Phase d s

theorem Phase.call {d : Delay} {s : TimingState} (h : Phase d s) : s.call = [] := by
  cases h <;> assumption

theorem timing_tick_iff {s s' : TimingState} :
    timing.step s .tick = some s' ↔
      s.service.Settled ∧
        s' = { s with service := { s.service with now := s.service.now + 1 } } := by
  simp only [timing, timingStep, Option.map_eq_some_iff, TimerService.tick_eq_some_iff]
  constructor
  · rintro ⟨_, ⟨hsettled, rfl⟩, rfl⟩
    exact ⟨hsettled, rfl⟩
  · rintro ⟨hsettled, rfl⟩
    exact ⟨_, ⟨hsettled, rfl⟩, rfl⟩

theorem timing_expire_iff {s s' : TimingState} :
    timing.step s .expire = some s' ↔
      ∃ time timer rest, s.service.active = (time, timer) :: rest ∧ time ≤ s.service.now ∧
        s' = timerCallback timer
          { s with service := { s.service with active := rest } } := by
  simp only [timing, timingStep, Option.map_eq_some_iff, Prod.exists,
    TimerService.expire_eq_some_iff]
  constructor
  · rintro ⟨timer, _, ⟨time, rest, hactive, hdue, rfl⟩, rfl⟩
    exact ⟨time, timer, rest, hactive, hdue, rfl⟩
  · rintro ⟨time, timer, rest, hactive, hdue, rfl⟩
    exact ⟨timer, _, ⟨time, rest, hactive, hdue, rfl⟩, rfl⟩

theorem timing_statement_iff {s s' : TimingState} :
    timing.step s .statement = some s' ↔
      ∃ statement rest, s.call = statement :: rest ∧
        s' = statement.exec { s with call := rest } := by
  simp only [timing, timingStep]
  cases s.call with
  | nil => simp
  | cons statement rest =>
      constructor
      · intro h
        exact ⟨statement, rest, rfl, (Option.some.inj h).symm⟩
      · rintro ⟨_, _, hcall, rfl⟩
        obtain ⟨rfl, rfl⟩ := List.cons.inj hcall
        rfl

/-- A callback writes the state word only. -/
theorem timerCallback_frame (timer : DelayTimer) (s : TimingState) :
    (timerCallback timer s).service = s.service ∧ (timerCallback timer s).call = s.call ∧
      (timerCallback timer s).last = s.last := by
  cases timer <;> exact ⟨rfl, rfl, rfl⟩

/-- A tick keeps the phase and the value. -/
theorem Phase.tick {d : Delay} {s s' : TimingState} (h : Phase d s)
    (hstep : timing.step s .tick = some s') : Phase d s' ∧ getDelay s' = getDelay s := by
  obtain ⟨hsettled, rfl⟩ := timing_tick_iff.mp hstep
  refine ⟨?_, rfl⟩
  cases h with
  | running harmed hpos hfrom hto hvalue hcall hlast =>
      -- The intermediate timer is active and not due, so the tick stays within its delay.
      have hfirst : s.service.now < d.time + d.intMs := by
        refine hsettled (d.time + d.intMs, .intTimer) ?_
        rw [harmed, Delay.armed, if_neg (Nat.ne_of_gt hpos)]
        exact List.mem_cons_self
      exact .running harmed hpos (Nat.le_succ_of_le hfrom) hfirst hvalue hcall hlast
  | between hactive hpos hfin hnow hvalue hcall hlast =>
      have hlate : s.service.now < d.time + d.intMs := by
        refine hsettled (d.time + d.intMs, .finTimer) ?_
        rw [hactive]
        exact List.mem_cons_self
      omega
  | expired hactive hnow hvalue hcall hlast =>
      exact .expired hactive (Nat.le_succ_of_le hnow) hvalue hcall hlast

/-- An expiry leads to the next phase and does not decrease the value. -/
theorem Phase.expire {d : Delay} {s s' : TimingState} (h : Phase d s)
    (hstep : timing.step s .expire = some s') : Phase d s' ∧ getDelay s ≤ getDelay s' := by
  obtain ⟨time, timer, rest, hactive', hdue, rfl⟩ := timing_expire_iff.mp hstep
  cases h with
  | running harmed hpos hfrom hto hvalue hcall hlast =>
      rw [harmed, Delay.armed, if_neg (Nat.ne_of_gt hpos)] at hactive'
      obtain ⟨hitem, rfl⟩ := List.cons.inj hactive'
      obtain ⟨rfl, rfl⟩ := Prod.mk.inj hitem
      have hnow : s.service.now = d.time + d.intMs := Nat.le_antisymm hto hdue
      constructor
      · by_cases hfin : d.finMs = 0
        · refine .expired (by simp [timerCallback, hfin]) (Nat.le_of_eq hnow.symm) ?_ hcall hlast
          simp [timerCallback, Delay.endValue, hfin, Nat.ne_of_gt hpos]
        · exact .between (by simp [timerCallback, hfin]) hpos (Nat.pos_of_ne_zero hfin) hnow
            rfl hcall hlast
      · have hle : d.startValue ≤ timerIntermediatePassed := by
          unfold Delay.startValue
          split <;> decide
        exact Int.le_trans (Int.le_of_eq hvalue) hle
  | between hactive hpos hfin hnow hvalue hcall hlast =>
      rw [hactive] at hactive'
      obtain ⟨hitem, rfl⟩ := List.cons.inj hactive'
      obtain ⟨rfl, rfl⟩ := Prod.mk.inj hitem
      constructor
      · refine .expired rfl (Nat.le_of_eq hnow.symm) ?_ hcall hlast
        simp [timerCallback, Delay.endValue, Nat.ne_of_gt hpos, Nat.ne_of_gt hfin]
      · have hle : timerIntermediatePassed ≤ timerFinalDelayPassed := by decide
        exact Int.le_trans (Int.le_of_eq hvalue) hle
  | expired hactive _ _ _ _ =>
      rw [hactive] at hactive'
      cases hactive'

/-- What one event does. -/
theorem Phase.step {d : Delay} {s s' : TimingState} {a : TimingAction} (h : Phase d s)
    (ha : a.isEvent = true) (hstep : timing.step s a = some s') :
    Phase d s' ∧ getDelay s ≤ getDelay s' := by
  cases a with
  | setDelay intMs finMs => cases ha
  | statement =>
      obtain ⟨_, _, hcall, _⟩ := timing_statement_iff.mp hstep
      rw [h.call] at hcall
      cases hcall
  | tick =>
      obtain ⟨hphase, hvalue⟩ := h.tick hstep
      exact ⟨hphase, Int.le_of_eq hvalue.symm⟩
  | expire => exact h.expire hstep

/-! ## The stages of a call -/

/-- No time has passed since the call was made, or the call arms no timer. -/
def Delay.Unticked (d : Delay) (now : Nat) : Prop := d.time ≤ now ∧ (0 < d.intMs → now = d.time)

/-- Where a call stands: what it still has to do, and the timers it has left active. -/
inductive InCall (d : Delay) : TimingState → Prop
  | entered {s : TimingState} (hcall : s.call = d.body) (hnow : d.Unticked s.service.now)
      (hlast : s.last = some d) : InCall d s
  | intStopped {s : TimingState}
      (hcall : s.call = .stopIfActive .finTimer :: (d.arming ++ [.store d.startValue]))
      (hactive : ∀ item ∈ s.service.active, item.2 = .finTimer)
      (hnow : d.Unticked s.service.now) (hlast : s.last = some d) : InCall d s
  | stopped {s : TimingState} (hpos : 0 < d.intMs)
      (hcall : s.call = d.arming ++ [.store d.startValue]) (hactive : s.service.active = [])
      (hnow : d.Unticked s.service.now) (hlast : s.last = some d) : InCall d s
  | intArmed {s : TimingState} (hpos : 0 < d.intMs) (hfin : 0 < d.finMs)
      (hcall : s.call = [.changePeriod .finTimer d.intMs, .store d.startValue])
      (hactive : s.service.active = [(d.time + d.intMs, .intTimer)])
      (hnow : d.Unticked s.service.now) (hlast : s.last = some d) : InCall d s
  | armed {s : TimingState} (hcall : s.call = [.store d.startValue])
      (hactive : s.service.active = d.armed) (hnow : d.Unticked s.service.now)
      (hlast : s.last = some d) : InCall d s
  | returned {s : TimingState} (hphase : Phase d s) : InCall d s

theorem Delay.armed_of_intMs {d : Delay} (h : d.intMs = 0) : d.armed = [] := if_pos h

/-- Before its own timers are due, a call has no expiry but of the timers it found. -/
theorem Delay.Unticked.not_due {d : Delay} {now : Nat} (h : d.Unticked now) (hpos : 0 < d.intMs) :
    now < d.time + d.intMs := by
  have := h.2 hpos
  omega

/-- The next statement of a call. -/
theorem InCall.statement {d : Delay} {s s' : TimingState} (hlegal : LegalDelay d.intMs d.finMs)
    (h : InCall d s) (hstep : timing.step s .statement = some s') : InCall d s' := by
  obtain ⟨statement, rest, hnext, rfl⟩ := timing_statement_iff.mp hstep
  cases h with
  | entered hcall hnow hlast =>
      obtain ⟨rfl, rfl⟩ := List.cons.inj (hnext.symm.trans hcall)
      refine .intStopped rfl ?_ (by simpa [Statement.exec] using hnow) hlast
      intro item hitem
      simp only [Statement.exec, stopIfActive_eq_stop, TimerService.stop, List.mem_filter] at hitem
      obtain ⟨_, hne⟩ := hitem
      cases htimer : item.2 with
      | intTimer => simp [htimer] at hne
      | finTimer => rfl
  | intStopped hcall hactive hnow hlast =>
      obtain ⟨rfl, rfl⟩ := List.cons.inj (hnext.symm.trans hcall)
      have hempty : (stopIfActive .finTimer s.service).active = [] := by
        simp only [stopIfActive_eq_stop, TimerService.stop, List.filter_eq_nil_iff]
        intro item hitem
        simp [hactive item hitem]
      by_cases hint : d.intMs = 0
      · have hfin : d.finMs = 0 := by
          unfold LegalDelay at hlegal
          omega
        exact .armed (by simp [Statement.exec, Delay.arming, hint, hfin])
          (hempty.trans (Delay.armed_of_intMs hint).symm) (by simpa [Statement.exec] using hnow)
          hlast
      · exact .stopped (Nat.pos_of_ne_zero hint) rfl hempty (by simpa [Statement.exec] using hnow)
          hlast
  | stopped hpos hcall hactive hnow hlast =>
      have hint : d.intMs ≠ 0 := Nat.ne_of_gt hpos
      have hnow' := hnow.2 hpos
      rw [Delay.arming, if_pos hpos] at hcall
      obtain ⟨rfl, rfl⟩ := List.cons.inj (hnext.symm.trans hcall)
      have harmed := TimerService.changePeriod_active_of_nil .intTimer d.intMs hactive
      rw [hnow'] at harmed
      by_cases hfin : d.finMs = 0
      · exact .armed (by simp [Statement.exec, hfin])
          (harmed.trans (by simp [Delay.armed, hint, hfin])) hnow hlast
      · exact .intArmed hpos (Nat.pos_of_ne_zero hfin)
          (by simp [Statement.exec, Nat.pos_of_ne_zero hfin]) harmed hnow hlast
  | intArmed hpos hfin hcall hactive hnow hlast =>
      obtain ⟨rfl, rfl⟩ := List.cons.inj (hnext.symm.trans hcall)
      have hne : DelayTimer.intTimer ≠ DelayTimer.finTimer := by decide
      rw [← hnow.2 hpos] at hactive
      have harmed := TimerService.changePeriod_active_of_same d.intMs hne hactive
      rw [hnow.2 hpos] at harmed
      exact .armed rfl (harmed.trans (by simp [Delay.armed, Nat.ne_of_gt hpos, Nat.ne_of_gt hfin]))
        hnow hlast
  | armed hcall hactive hnow hlast =>
      obtain ⟨rfl, rfl⟩ := List.cons.inj (hnext.symm.trans hcall)
      by_cases hint : d.intMs = 0
      · have hfin : d.finMs = 0 := by
          unfold LegalDelay at hlegal
          omega
        refine .returned (.expired (hactive.trans (Delay.armed_of_intMs hint)) ?_ ?_ rfl hlast)
        · rw [hint]
          exact hnow.1
        · simp [Statement.exec, Delay.startValue, Delay.endValue, hint, hfin]
      · have hpos := Nat.pos_of_ne_zero hint
        exact .returned (.running hactive hpos hnow.1 (Nat.le_of_lt (hnow.not_due hpos)) rfl rfl
          hlast)
  | returned hphase =>
      rw [hphase.call] at hnext
      cases hnext

/-- A tick, in a call that arms no timer. -/
theorem InCall.tick {d : Delay} {s s' : TimingState} (h : InCall d s) (hint : d.intMs = 0)
    (hstep : timing.step s .tick = some s') : InCall d s' := by
  have hunticked : ∀ {now}, d.Unticked now → d.Unticked (now + 1) := by
    intro now hnow
    exact ⟨Nat.le_succ_of_le hnow.1, fun hpos => absurd hint (Nat.ne_of_gt hpos)⟩
  obtain ⟨_, hs'⟩ := timing_tick_iff.mp hstep
  cases h with
  | returned hphase => exact .returned (hphase.tick hstep).1
  | entered hcall hnow hlast =>
      subst hs'
      exact .entered hcall (hunticked hnow) hlast
  | intStopped hcall hactive hnow hlast =>
      subst hs'
      exact .intStopped hcall hactive (hunticked hnow) hlast
  | stopped hpos => exact absurd hint (Nat.ne_of_gt hpos)
  | intArmed hpos => exact absurd hint (Nat.ne_of_gt hpos)
  | armed hcall hactive hnow hlast =>
      subst hs'
      exact .armed hcall hactive (hunticked hnow) hlast

/-- An expiry. -/
theorem InCall.expire {d : Delay} {s s' : TimingState} (h : InCall d s)
    (hstep : timing.step s .expire = some s') : InCall d s' := by
  obtain ⟨time, timer, rest, hfirst, hdue, hs'⟩ := timing_expire_iff.mp hstep
  obtain ⟨hservice, hcall', hlast'⟩ :=
    timerCallback_frame timer { s with service := { s.service with active := rest } }
  cases h with
  | returned hphase => exact .returned (hphase.expire hstep).1
  | entered hcall hnow hlast =>
      subst hs'
      exact .entered (hcall'.trans hcall) (by rw [hservice]; exact hnow) (hlast'.trans hlast)
  | intStopped hcall hactive hnow hlast =>
      subst hs'
      refine .intStopped (hcall'.trans hcall) ?_ (by rw [hservice]; exact hnow)
        (hlast'.trans hlast)
      intro item hitem
      rw [hservice] at hitem
      exact hactive item (hfirst ▸ List.mem_cons_of_mem _ hitem)
  | stopped hpos hcall hactive hnow hlast =>
      rw [hactive] at hfirst
      cases hfirst
  | intArmed hpos hfin hcall hactive hnow hlast =>
      rw [hactive] at hfirst
      obtain ⟨hitem, -⟩ := List.cons.inj hfirst
      obtain ⟨rfl, -⟩ := Prod.mk.inj hitem
      exact absurd (hnow.not_due hpos) (Nat.not_lt.mpr hdue)
  | armed hcall hactive hnow hlast =>
      rw [hactive, Delay.armed] at hfirst
      split at hfirst
      · cases hfirst
      · rename_i hint
        obtain ⟨hitem, -⟩ := List.cons.inj hfirst
        obtain ⟨rfl, -⟩ := Prod.mk.inj hitem
        exact absurd (hnow.not_due (Nat.pos_of_ne_zero hint)) (Nat.not_lt.mpr hdue)

/-- A call in which time passes only if it arms no timer keeps to its stages. -/
theorem InCall.run {d : Delay} (hlegal : LegalDelay d.intMs d.finMs) :
    ∀ {during : List TimingAction} {s t : TimingState}, InCall d s →
      (∀ a ∈ during, a.isEvent = true ∧ (a = .tick → d.intMs = 0)) →
      timing.run s during = some t → InCall d t := by
  intro during
  induction during with
  | nil =>
      intro s t h _ hrun
      cases hrun
      exact h
  | cons a during ih =>
      intro s t h hduring hrun
      obtain ⟨s', hstep, hrest⟩ := Machine.run_uncons hrun
      obtain ⟨hevent, htick⟩ := hduring a List.mem_cons_self
      refine ih ?_ (fun b hb => hduring b (List.mem_cons_of_mem a hb)) hrest
      cases a with
      | setDelay => cases hevent
      | statement => exact h.statement hlegal hstep
      | tick => exact h.tick (htick rfl) hstep
      | expire => exact h.expire hstep

theorem inCall_setDelay (intMs finMs : Nat) (s : TimingState) :
    InCall ⟨s.service.now, intMs, finMs⟩ (setDelay intMs finMs s) :=
  .entered rfl ⟨Nat.le_refl _, fun _ => rfl⟩ rfl

/-- A call that has returned is in a phase. -/
theorem InCall.phase {d : Delay} {s : TimingState} (h : InCall d s) (hreturned : s.call = []) :
    Phase d s := by
  cases h with
  | returned hphase => exact hphase
  | entered hcall => simp [hcall, Delay.body] at hreturned
  | intStopped hcall => simp [hcall] at hreturned
  | stopped _ hcall => simp [hcall] at hreturned
  | intArmed _ _ hcall => simp [hcall] at hreturned
  | armed hcall => simp [hcall] at hreturned

/-- A statement leaves what is behind it. -/
theorem Statement.exec_call (s : TimingState) (statement : Statement) (call : List Statement) :
    statement.exec { s with call := call } = { statement.exec s with call := call } := by
  cases statement <;> rfl

/-- A call may run on without an event up to any of its statements. -/
theorem run_statements (done : List Statement) :
    ∀ {rest : List Statement} {s : TimingState}, s.call = done ++ rest →
      ∃ t, timing.run s (List.replicate done.length .statement) = some t ∧ t.call = rest := by
  induction done with
  | nil =>
      intro rest s hcall
      exact ⟨s, rfl, hcall⟩
  | cons statement done ih =>
      intro rest s hcall
      have hstep := timing_statement_iff.mpr ⟨statement, done ++ rest, hcall, rfl⟩
      have hcall' : (statement.exec { s with call := done ++ rest }).call = done ++ rest := by
        rw [Statement.exec_call]
      obtain ⟨t, hrun, ht⟩ := ih hcall'
      refine ⟨t, ?_, ht⟩
      simp only [List.length_cons, List.replicate_succ, Machine.run, hstep, hrun]

/-! ## The contract -/

/-- Delays for which the phases have the required values: without a final delay there is
no intermediate one, and no whole tick lies strictly between the two. -/
def Delay.Adjacent (d : Delay) : Prop :=
  (d.finMs = 0 → d.intMs = 0) ∧ d.finMs ≤ d.intMs + 1

/-- Under such delays every phase returns what is required. -/
theorem Phase.conforms {d : Delay} {s : TimingState} (h : Phase d s)
    (hlegal : LegalDelay d.intMs d.finMs) (hd : d.Adjacent) : Conforms s := by
  obtain ⟨hzero, hadjacent⟩ := hd
  unfold LegalDelay at hlegal
  intro d' hd'
  cases h with
  | running harmed hpos hfrom hto hvalue hcall hlast =>
      obtain rfl : d = d' := Option.some.inj (hlast.symm.trans hd')
      have hfin : d.finMs ≠ 0 := by omega
      have hstart : getDelay s = 0 := hvalue.trans (if_neg hfin)
      exact ⟨fun h => absurd h hfin, fun _ _ => hstart, by omega, by omega⟩
  | between hactive hpos hfin hnow hvalue hcall hlast =>
      obtain rfl : d = d' := Option.some.inj (hlast.symm.trans hd')
      exact ⟨by omega, by omega, fun _ _ => hvalue, by omega⟩
  | expired hactive hnow hvalue hcall hlast =>
      obtain rfl : d = d' := Option.some.inj (hlast.symm.trans hd')
      by_cases hfin : d.finMs = 0
      · have hend : getDelay s = -1 := hvalue.trans (if_pos (hzero hfin))
        exact ⟨fun _ => hend, fun h => absurd hfin h, by omega, fun h => absurd hfin h⟩
      · have hint : d.intMs ≠ 0 := by omega
        have hend : getDelay s = 2 :=
          hvalue.trans ((if_neg hint).trans (if_neg hfin))
        exact ⟨fun h => absurd h hfin, by omega, by omega, fun _ _ => hend⟩

/-- Along events the phase is kept, so the contract holds for such delays. -/
theorem Phase.contract {d : Delay} (hlegal : LegalDelay d.intMs d.finMs) (hd : d.Adjacent) :
    ∀ {events : List TimingAction} {s : TimingState}, Phase d s →
      (∀ a ∈ events, a.isEvent = true) → Contract s events := by
  intro events
  induction events with
  | nil =>
      intro s h _
      exact ⟨h.conforms hlegal hd, trivial⟩
  | cons a events ih =>
      intro s h hevents
      cases hstep : timing.step s a with
      | none =>
          constructor
          · simpa [Machine.Always, hstep] using h.conforms hlegal hd
          · simp [Machine.Guarded, hstep]
      | some s' =>
          obtain ⟨hphase, hle⟩ := h.step (hevents a List.mem_cons_self) hstep
          have hrest := ih hphase (fun b hb => hevents b (List.mem_cons_of_mem a hb))
          constructor
          · exact (Machine.always_cons events hstep).mpr ⟨h.conforms hlegal hd, hrest.1⟩
          · refine (Machine.guarded_cons events hstep).mpr ⟨?_, hrest.2⟩
            intro t ht
            obtain rfl : s' = t := Option.some.inj (hstep.symm.trans ht)
            exact hle

/-! ## A run past the intermediate delay -/

/-- Time passes freely until the first timer is due. -/
theorem run_ticks (n : Nat) (s : TimingState)
    (h : ∀ item ∈ s.service.active, s.service.now + n ≤ item.1) :
    timing.run s (List.replicate n .tick) =
      some { s with service := { s.service with now := s.service.now + n } } := by
  induction n generalizing s with
  | zero => rfl
  | succ n ih =>
      have hsettled : s.service.Settled := by
        intro item hitem
        have hle := h item hitem
        omega
      have htick := timing_tick_iff.mpr ⟨hsettled, rfl⟩
      have hrest := ih { s with service := { s.service with now := s.service.now + 1 } }
        (fun item hitem => by
          have hle := h item hitem
          simp only
          omega)
      simp only [List.replicate_succ, Machine.run, htick, hrest, Nat.add_assoc,
        Nat.add_comm 1 n]

/-- The timers of a call expire at the intermediate delay, whether the call has returned or
not. -/
theorem run_to_intMs {d : Delay} {s : TimingState} (harmed : s.service.active = d.armed)
    (hpos : 0 < d.intMs) (hto : s.service.now ≤ d.time + d.intMs) :
    ∃ events : List TimingAction, (∀ a ∈ events, a.isEvent = true) ∧
      timing.run s events = some ⟨⟨d.time + d.intMs, []⟩, d.endValue, s.call, s.last⟩ := by
  obtain ⟨n, hn⟩ := Nat.exists_eq_add_of_le hto
  have hint : d.intMs ≠ 0 := Nat.ne_of_gt hpos
  have hticks := run_ticks n s (by
    intro item hitem
    rw [harmed, Delay.armed, if_neg hint] at hitem
    split at hitem <;> simp at hitem <;> grind)
  by_cases hfin : d.finMs = 0
  · refine ⟨List.replicate n .tick ++ [.expire], ?_, ?_⟩
    · simp [or_imp, forall_and, TimingAction.isEvent]
    · rw [Machine.run_append hticks]
      simp [Machine.run, timing, timingStep, TimerService.expire, timerCallback, Delay.endValue,
        Delay.armed, harmed, ← hn, hint, hfin]
  · refine ⟨List.replicate n .tick ++ [.expire, .expire], ?_, ?_⟩
    · simp [or_imp, forall_and, TimingAction.isEvent]
    · rw [Machine.run_append hticks]
      simp [Machine.run, timing, timingStep, TimerService.expire, timerCallback, Delay.endValue,
        Delay.armed, harmed, ← hn, hint, hfin]

/-- One tick past the intermediate delay the value is the required one only if the two
delays are adjacent. -/
theorem Delay.adjacent_of_requires {d : Delay} (hpos : 0 < d.intMs)
    (h : d.Requires (d.intMs + 1) d.endValue) : d.Adjacent := by
  obtain ⟨hnone, _, hbetween, _⟩ := h
  have hint : d.intMs ≠ 0 := Nat.ne_of_gt hpos
  by_cases hfin : d.finMs = 0
  · have hend : d.endValue = 1 := (if_neg hint).trans (if_pos hfin)
    exact absurd (hend.symm.trans (hnone hfin)) (by decide)
  · have hend : d.endValue = 2 := (if_neg hint).trans (if_neg hfin)
    refine ⟨fun h => absurd h hfin, Nat.le_of_not_lt fun hlt => ?_⟩
    have hone := hbetween (Nat.lt_succ_self _) hlt
    exact absurd (hend.symm.trans hone) (by decide)

/-- A call may come to its last statement, the store, in no time. -/
theorem run_to_store {intMs finMs : Nat} (hlegal : LegalDelay intMs finMs) (hpos : 0 < intMs)
    (s : TimingState) :
    ∃ (n : Nat) (t : TimingState),
      timing.run (setDelay intMs finMs s) (List.replicate n .statement) = some t ∧
      t.service = ⟨s.service.now, Delay.armed ⟨s.service.now, intMs, finMs⟩⟩ ∧
      t.call = [.store (Delay.startValue ⟨s.service.now, intMs, finMs⟩)] ∧
      t.last = some ⟨s.service.now, intMs, finMs⟩ := by
  have hcall : (setDelay intMs finMs s).call =
      (.stopIfActive .intTimer :: .stopIfActive .finTimer ::
        Delay.arming ⟨s.service.now, intMs, finMs⟩) ++
      [.store (Delay.startValue ⟨s.service.now, intMs, finMs⟩)] := rfl
  obtain ⟨t, hrun, ht⟩ := run_statements _ hcall
  have hstage : InCall ⟨s.service.now, intMs, finMs⟩ t := by
    refine InCall.run hlegal (inCall_setDelay intMs finMs s) ?_ hrun
    intro a ha
    rw [List.eq_of_mem_replicate ha]
    exact ⟨rfl, fun h => by cases h⟩
  refine ⟨_, t, hrun, ?_⟩
  cases hstage with
  | armed _ hactive hnow hlast =>
      refine ⟨?_, ht, hlast⟩
      have hnow := hnow.2 hpos
      cases hservice : t.service
      rw [hservice] at hactive hnow
      exact congrArg₂ TimerService.mk hnow hactive
  | entered hcall => simp [ht, Delay.body] at hcall
  | intStopped hcall => simp [ht] at hcall
  | stopped _ hcall => simp [ht, Delay.arming, hpos] at hcall
  | intArmed _ _ hcall => simp [ht] at hcall
  | returned hphase => simp [hphase.call] at ht

theorem timing_store {s : TimingState} {value : Int} (h : s.call = [.store value]) :
    timing.run s [.statement] = some { s with state := value, call := [] } := by
  have hstep : timing.step s .statement = some { s with state := value, call := [] } :=
    timing_statement_iff.mpr ⟨_, [], h, rfl⟩
  simp only [Machine.run, hstep]

/-- Where no tick falls into a call, the contract holds only for adjacent delays. -/
theorem adjacent_of_keepsContract {s : TimingState} {intMs finMs : Nat}
    (hlegal : LegalDelay intMs finMs) (h : KeepsContract (· ≠ .tick) intMs finMs s) :
    Delay.Adjacent ⟨s.service.now, intMs, finMs⟩ := by
  by_cases hint : intMs = 0
  · unfold LegalDelay at hlegal
    refine ⟨fun _ => hint, ?_⟩
    dsimp only
    omega
  have hpos := Nat.pos_of_ne_zero hint
  obtain ⟨n, t, hrun, hservice, hcall, hlast⟩ := run_to_store hlegal hpos s
  have hreturn := (Machine.run_append hrun).trans (timing_store hcall)
  have hcontract := h _ _ (by simp [or_imp, forall_and, TimingAction.isEvent]) hreturn rfl
  -- behind the call, one tick past the intermediate delay
  obtain ⟨events, hevents, hexpired⟩ :=
    run_to_intMs (d := ⟨s.service.now, intMs, finMs⟩)
      (s := { t with state := Delay.startValue ⟨s.service.now, intMs, finMs⟩, call := [] })
      (by rw [hservice]) hpos (by rw [hservice]; exact Nat.le_add_right _ _)
  have htick := run_ticks 1 ⟨⟨s.service.now + intMs, []⟩,
    Delay.endValue ⟨s.service.now, intMs, finMs⟩, [], t.last⟩ (by simp)
  have hconforms := (hcontract (events ++ List.replicate 1 .tick)
    (by simpa [or_imp, forall_and, TimingAction.isEvent] using hevents)).1.last
    ((Machine.run_append hexpired).trans htick)
  have hrequires := hconforms _ hlast
  simp only [Nat.add_assoc, Nat.add_sub_cancel_left] at hrequires
  exact Delay.adjacent_of_requires hpos hrequires

/-- Where ticks may fall into a call, the timers it has armed may expire before it stores the
state word, and the contract holds for no final delay. -/
theorem finMs_eq_zero_of_keepsContract {s : TimingState} {intMs finMs : Nat}
    (hlegal : LegalDelay intMs finMs) (h : KeepsContract (fun _ => True) intMs finMs s) :
    finMs = 0 := by
  refine Decidable.byContradiction fun hfin => ?_
  have hpos : 0 < intMs := by
    unfold LegalDelay at hlegal
    omega
  obtain ⟨n, t, hrun, hservice, hcall, hlast⟩ := run_to_store hlegal hpos s
  obtain ⟨events, hevents, hexpired⟩ :=
    run_to_intMs (d := ⟨s.service.now, intMs, finMs⟩) (s := t) (by rw [hservice]) hpos
      (by rw [hservice]; exact Nat.le_add_right _ _)
  have hreturn := (Machine.run_append hrun).trans
    ((Machine.run_append hexpired).trans (timing_store hcall))
  have hcontract := h _ _
    (by simpa [or_imp, forall_and, TimingAction.isEvent] using hevents) hreturn rfl
  -- the value is zero for good
  have hticks := run_ticks (finMs + 1) ⟨⟨s.service.now + intMs, []⟩,
    Delay.startValue ⟨s.service.now, intMs, finMs⟩, [], t.last⟩ (by simp)
  have hconforms := (hcontract (List.replicate (finMs + 1) .tick)
    (by simp [TimingAction.isEvent])).1.last hticks
  obtain ⟨-, -, -, hpassed⟩ := hconforms _ hlast
  have hvalue : Delay.startValue ⟨s.service.now, intMs, finMs⟩ = 2 := by
    refine hpassed hfin ?_
    simp only
    omega
  simp [Delay.startValue, hfin, timerNormal] at hvalue

/-- After a legal call in any context, whatever calls led to it, the contract holds until
the next call precisely for these delays if no tick falls into the call: if the final delay
is zero so is the intermediate one, and otherwise the final delay is the intermediate one or
one millisecond more.  If ticks may fall into the call, it holds for no delays but zero. -/
theorem setDelay_contract_iff (s : TimingState) (intMs finMs : Nat)
    (hlegal : LegalDelay intMs finMs) :
    (KeepsContract (· ≠ .tick) intMs finMs s ↔
      (finMs = 0 → intMs = 0) ∧ finMs ≤ intMs + 1) ∧
    (KeepsContract (fun _ => True) intMs finMs s ↔ intMs = 0 ∧ finMs = 0) := by
  have hkeeps : ∀ {inside : TimingAction → Prop}, (∀ a, inside a → a = .tick → intMs = 0) →
      Delay.Adjacent ⟨s.service.now, intMs, finMs⟩ → KeepsContract inside intMs finMs s := by
    intro inside htick hadjacent during t hinside hrun hreturned events hevents
    have hphase := (InCall.run hlegal (inCall_setDelay intMs finMs s)
      (fun a ha => ⟨(hinside a ha).1, htick a (hinside a ha).2⟩) hrun).phase hreturned
    exact Phase.contract (d := ⟨s.service.now, intMs, finMs⟩) hlegal hadjacent hphase hevents
  refine ⟨⟨adjacent_of_keepsContract hlegal, ?_⟩, ⟨fun h => ?_, ?_⟩⟩
  · exact hkeeps fun a hne htick => absurd htick hne
  · have hfin := finMs_eq_zero_of_keepsContract hlegal h
    have hadjacent := adjacent_of_keepsContract hlegal fun during t hduring =>
      h during t fun a ha => ⟨(hduring a ha).1, trivial⟩
    exact ⟨hadjacent.1 hfin, hfin⟩
  · rintro ⟨hint, hfin⟩
    refine hkeeps (fun _ _ _ => hint) ⟨fun _ => hint, ?_⟩
    simp only [hint, hfin]
    exact Nat.zero_le _

/-- A context whose timers have been created. -/
def timingInit : TimingState := ⟨⟨0, []⟩, 0, [], none⟩

theorem setDelay_contract_two_three :
    LegalDelay 2 3 ∧ KeepsContract (· ≠ .tick) 2 3 timingInit :=
  ⟨by decide, (setDelay_contract_iff timingInit 2 3 (by decide)).1.mpr (by decide)⟩

/-- With delays of 1 and 3 ms the final delay is reported after 2 ms. -/
theorem setDelay_contract_fails :
    ¬ ∀ (s : TimingState) (intMs finMs : Nat), LegalDelay intMs finMs →
      KeepsContract (· ≠ .tick) intMs finMs s := by
  intro h
  have hcontract := h timingInit 1 3 (by decide) (List.replicate 5 .statement) _ (by decide) rfl rfl
    [.tick, .expire, .expire, .tick] (by decide)
  exact absurd hcontract.1 (by decide)

end Uiso.Mbedtls
