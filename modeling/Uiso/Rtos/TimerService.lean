/-
  Rtos/TimerService.lean --- the list of active software timers and the task
  that expires them.

  The service keeps the active timers in the order of their expiry times, a timer
  inserted after those with the same time (vListInsert), and runs the callback of
  the first one when its time has come.  All timers here are one-shot.  Time is
  counted in ticks and does not wrap: the two lists the kernel switches between
  at an overflow are one list with the full expiry times.
-/
import Uiso.Foundation.Machine

set_option autoImplicit false

namespace Uiso.Rtos

variable {τ : Type}

/-- The tick count and the active timers with their expiry times, the next one to
expire first. -/
structure TimerService (τ : Type) where
  now : Nat
  active : List (Nat × τ)
  deriving DecidableEq, Repr

namespace TimerService

/-- `vListInsert`: the new item goes after every item whose value is not greater. -/
def listInsert (item : Nat × τ) : List (Nat × τ) → List (Nat × τ)
  | [] => [item]
  | head :: rest =>
      if head.1 ≤ item.1 then head :: listInsert item rest else item :: head :: rest

/-- `xTimerIsTimerActive`. -/
def isTimerActive [DecidableEq τ] (timer : τ) (service : TimerService τ) : Bool :=
  service.active.any (fun item => item.2 == timer)

/-- `xTimerStop`. -/
def stop [DecidableEq τ] (timer : τ) (service : TimerService τ) : TimerService τ :=
  { service with active := service.active.filter (fun item => item.2 != timer) }

/-- `xTimerChangePeriod`: the timer is taken off the list and started with its new
period. -/
def changePeriod [DecidableEq τ] (timer : τ) (ticks : Nat) (service : TimerService τ) :
    TimerService τ :=
  { service with
    active := listInsert (service.now + ticks, timer) (service.stop timer).active }

/-- No active timer has reached its expiry time. -/
def Settled (service : TimerService τ) : Prop :=
  ∀ item ∈ service.active, service.now < item.1

instance (service : TimerService τ) : Decidable service.Settled :=
  inferInstanceAs (Decidable (∀ item ∈ service.active, service.now < item.1))

/-- The tick interrupt.  The timers due at a tick are run before the next one. -/
def tick (service : TimerService τ) : Option (TimerService τ) :=
  if service.Settled then some { service with now := service.now + 1 } else none

/-- The timer task takes the first timer off the list when it is due; its callback is
the caller's. -/
def expire (service : TimerService τ) : Option (τ × TimerService τ) :=
  match service.active with
  | [] => none
  | (time, timer) :: rest =>
      if time ≤ service.now then some (timer, { service with active := rest }) else none

/-! ## What the operations do to the list -/

section Operations

variable [DecidableEq τ]

@[simp] theorem stop_now (timer : τ) (service : TimerService τ) :
    (service.stop timer).now = service.now := rfl

@[simp] theorem changePeriod_now (timer : τ) (ticks : Nat) (service : TimerService τ) :
    (service.changePeriod timer ticks).now = service.now := rfl

/-- Stopping a timer that is not active changes nothing. -/
theorem stop_eq_self {timer : τ} {service : TimerService τ}
    (h : service.isTimerActive timer = false) : service.stop timer = service := by
  have hkeep : ∀ item ∈ service.active, (item.2 != timer) = true := by
    intro item hitem
    have hne := List.any_eq_false.mp h item hitem
    simpa using hne
  cases service
  simpa [stop] using hkeep

/-- A timer started while no other is active is the only active one. -/
theorem changePeriod_active_of_nil (timer : τ) (ticks : Nat) {service : TimerService τ}
    (h : service.active = []) :
    (service.changePeriod timer ticks).active = [(service.now + ticks, timer)] := by
  simp [changePeriod, stop, h, listInsert]

/-- A second timer that expires at the same tick as the only active one comes after it. -/
theorem changePeriod_active_of_same {timer other : τ} (ticks : Nat)
    {service : TimerService τ} (hne : other ≠ timer)
    (h : service.active = [(service.now + ticks, other)]) :
    (service.changePeriod timer ticks).active =
      [(service.now + ticks, other), (service.now + ticks, timer)] := by
  simp [changePeriod, stop, h, listInsert, hne]

end Operations

/-! ## The two events -/

/-- A tick happens only when nothing is due, and moves the time only. -/
theorem tick_eq_some_iff {service service' : TimerService τ} :
    service.tick = some service' ↔
      service.Settled ∧ service' = { service with now := service.now + 1 } := by
  unfold tick
  split
  · rename_i h
    simp [h, eq_comm]
  · rename_i h
    simp [h]

/-- An expiry takes the first timer of the list, which is due. -/
theorem expire_eq_some_iff {service service' : TimerService τ} {timer : τ} :
    service.expire = some (timer, service') ↔
      ∃ time rest, service.active = (time, timer) :: rest ∧ time ≤ service.now ∧
        service' = { service with active := rest } := by
  unfold expire
  cases h : service.active with
  | nil => simp
  | cons item rest =>
      obtain ⟨time, first⟩ := item
      by_cases hdue : time ≤ service.now
      · simp only [hdue, if_true, Option.some.injEq, Prod.mk.injEq, List.cons.injEq]
        constructor
        · rintro ⟨rfl, rfl⟩
          exact ⟨time, rest, ⟨⟨rfl, rfl⟩, rfl⟩, hdue, rfl⟩
        · rintro ⟨_, _, ⟨⟨rfl, rfl⟩, rfl⟩, _, rfl⟩
          exact ⟨rfl, rfl⟩
      · simp only [hdue, if_false, List.cons.injEq, Prod.mk.injEq]
        constructor
        · intro hnone
          cases hnone
        · rintro ⟨_, _, ⟨⟨rfl, rfl⟩, rfl⟩, hle, _⟩
          exact absurd hle hdue

end TimerService

end Uiso.Rtos
