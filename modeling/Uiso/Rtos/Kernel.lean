/-
  Rtos/Kernel.lean --- the FreeRTOS objects the tasks share: notification
  values, software timers, task states.

  The kernel is not part of the repository; each definition states the
  documented behaviour of the call it is named after.  Only what a caller can
  observe is kept: a notification is its value and whether it has been received
  since the last wait, a timer is whether it is active and with which period.
-/
import Mathlib.Algebra.Ring.Nat

set_option autoImplicit false

namespace Uiso.Rtos

/-! ## Task notifications -/

/-- Does the notification value have one of the bits of `mask`? -/
def test (value mask : BitVec 32) : Bool := value &&& mask != 0#32

@[simp] theorem test_zero (mask : BitVec 32) : test 0#32 mask = false := by
  simp [test]

@[simp] theorem test_zero_mask (value : BitVec 32) : test value 0#32 = false := by
  simp [test]

/-- Bits that are OR-ed together are tested separately. -/
@[simp] theorem test_or (v w mask : BitVec 32) :
    test (v ||| w) mask = (test v mask || test w mask) := by
  have hzero : ((v ||| w) &&& mask = 0#32) ↔
      (v &&& mask = 0#32 ∧ w &&& mask = 0#32) := by
    rw [BitVec.and_or_distrib_right, BitVec.or_eq_zero_iff]
  rw [Bool.eq_iff_iff]
  simp only [test, bne_iff_ne, ne_eq, hzero, Bool.or_eq_true]
  exact Decidable.not_and_iff_not_or_not

/-- A task's notification: its value, and whether one was received that no wait
has returned yet. -/
structure Notification where
  value : BitVec 32
  received : Bool
  deriving DecidableEq, Repr, Inhabited

namespace Notification

/-- The notification of a task nobody has notified. -/
def none : Notification := ⟨0#32, false⟩

/-- `xTaskNotify(task, bits, eSetBits)`. -/
def setBits (n : Notification) (bits : BitVec 32) : Notification :=
  ⟨n.value ||| bits, true⟩

/-- `xTaskNotifyIndexed(task, 0, _, eIncrement)`. -/
def increment (n : Notification) : Notification :=
  ⟨n.value + 1#32, true⟩

/-- Entry of `xTaskNotifyWait`: the bits to clear on entry are cleared only when
no notification is waiting to be returned. -/
def enterWait (clearOnEntry : BitVec 32) (n : Notification) : Notification :=
  if n.received then n else { n with value := n.value &&& ~~~clearOnEntry }

/-- Exit of `xTaskNotifyWait` with a notification. -/
def leaveWait (clearOnExit : BitVec 32) (n : Notification) : Notification :=
  ⟨n.value &&& ~~~clearOnExit, false⟩

@[simp] theorem setBits_received (n : Notification) (bits : BitVec 32) :
    (n.setBits bits).received = true := rfl

@[simp] theorem setBits_value (n : Notification) (bits : BitVec 32) :
    (n.setBits bits).value = n.value ||| bits := rfl

/-- Entering a wait with nothing pending and nothing left in the value changes
nothing. -/
theorem enterWait_eq_self {m : BitVec 32} {n : Notification}
    (h : n.received = false → n.value = 0#32) : n.enterWait m = n := by
  unfold enterWait
  split
  · rfl
  · rename_i hreceived
    have hvalue := h (by simpa using hreceived)
    cases n
    simp_all

/-- A wait that clears every bit on exit leaves the empty value. -/
theorem leaveWait_allOnes (n : Notification) :
    n.leaveWait (BitVec.allOnes 32) = ⟨0#32, false⟩ := by
  simp [leaveWait]

end Notification

/-! ## Software timers -/

/-- A software timer. -/
structure Timer where
  active : Bool
  period : Nat
  deriving DecidableEq, Repr, Inhabited

namespace Timer

/-- `xTimerChangePeriod`: sets the period and starts the timer. -/
def changePeriod (_ : Timer) (ticks : Nat) : Timer := ⟨true, ticks⟩

/-- `xTimerStop`. -/
def stop (t : Timer) : Timer := { t with active := false }

@[simp] theorem changePeriod_active (t : Timer) (ticks : Nat) :
    (t.changePeriod ticks).active = true := rfl

@[simp] theorem stop_active (t : Timer) : t.stop.active = false := rfl

end Timer

/-- `pdMS_TO_TICKS` at tick rate `rate`: the product is formed in 32 bits. -/
def pdMsToTicks (rate ms : Nat) : Nat := ms * rate % 2 ^ 32 / 1000

/-- The conversion is exact precisely if the product fits. -/
theorem pdMsToTicks_eq_iff (rate ms : Nat) :
    pdMsToTicks rate ms = ms * rate / 1000 ↔ ms * rate < 2 ^ 32 := by
  unfold pdMsToTicks
  constructor
  · intro h
    by_contra hge
    have hwrap : ms * rate % 2 ^ 32 ≤ ms * rate - 2 ^ 32 := by omega
    omega
  · intro h
    rw [Nat.mod_eq_of_lt h]

/-! ## Tasks -/

/-- Scheduling state of a task: has it run up to its first instruction after
creation, and is it suspended. -/
structure Task where
  started : Bool
  suspended : Bool
  deriving DecidableEq, Repr, Inhabited

namespace Task

/-- A task as `xTaskCreate` leaves it. -/
def created : Task := ⟨false, false⟩

/-- `vTaskSuspend`. -/
def suspend (t : Task) : Task := { t with suspended := true }

/-- `vTaskResume`. -/
def resume (t : Task) : Task := { t with suspended := false }

@[simp] theorem suspend_suspended (t : Task) : t.suspend.suspended = true := rfl

@[simp] theorem resume_suspended (t : Task) : t.resume.suspended = false := rfl

end Task

end Uiso.Rtos
