/-
  Gecko/WallClock.lean --- the wall clock of the bundled Gecko SDK (`sl_sleeptimer.c`).

  The clock is the number of seconds at the last overflow of the sleeptimer's counter,
  to which the counter's own seconds are added.  Setting it subtracts the counter's
  seconds first, so that reading it back gives the time that was set; it fails for a
  time the counter has already passed.  The time zone belongs to the clock and is set
  with its date.
-/
import Uiso.Gecko.Calendar

set_option autoImplicit false

namespace Uiso.Gecko

/-- The static variables of the wall clock, and the counter they are read with. -/
structure WallClock where
  secondCount : UInt32
  overflowTickRest : UInt32
  /-- in seconds from UTC -/
  tzOffset : Int
  /-- `sleeptimer_hal_get_counter()` -/
  counter : UInt32
  /-- `timer_frequency` -/
  frequency : UInt32
  frequency_pos : 0 < frequency
  deriving DecidableEq

namespace WallClock

/-- `sl_sleeptimer_get_time` -/
def getTime (c : WallClock) : UInt32 :=
  let time := c.secondCount + c.counter / c.frequency
  if c.frequency ≤ c.counter % c.frequency + c.overflowTickRest then time + 1 else time

/-- `sl_sleeptimer_set_time`: is it `SL_STATUS_OK`, and the clock. -/
def setTime (time : UInt32) (c : WallClock) : Bool × WallClock :=
  if isValidTime time .unix 0 then
    let counterSec := c.counter / c.frequency
    let c := { c with secondCount := time, overflowTickRest := 0 }
    if counterSec ≤ c.secondCount then
      (true, { c with secondCount := c.secondCount - counterSec })
    else (false, c)
  else (false, c)

/-- `sl_sleeptimer_get_datetime`; `none` is a failure. -/
def getDatetime (c : WallClock) : Option SleeptimerDate := convertTimeToDate c.getTime c.tzOffset

/-- `sl_sleeptimer_set_datetime`: is it `SL_STATUS_OK`, and the clock. -/
def setDatetime (date : SleeptimerDate) (c : WallClock) : Bool × WallClock :=
  if isValidDate date then
    match convertDateToTime date with
    | none => (false, c)
    | some time =>
        match c.setTime time with
        | (true, c) => (true, { c with tzOffset := date.timeZone })
        | (false, c) => (false, c)
  else (false, c)

variable {c : WallClock} {time : UInt32}

/-- A time of the RTC is set unless the counter has passed it. -/
theorem setTime_eq (hvalid : isValidTime time .unix 0 = true)
    (hcounter : c.counter / c.frequency ≤ time) :
    c.setTime time =
      (true, { c with
        secondCount := time - c.counter / c.frequency, overflowTickRest := 0 }) := by
  simp only [setTime, hvalid, if_true, hcounter]

/-- A time the counter has passed is not set, but stored: the clock then shows it on top of the
counter's seconds. -/
theorem setTime_passed (hrange : time ≤ timeUnixTimestampMax) (h : (c.setTime time).1 = false) :
    ¬c.counter / c.frequency ≤ time ∧
      (c.setTime time).2.getTime = time + c.counter / c.frequency := by
  have hvalid : isValidTime time .unix 0 = true := by
    rw [isValidTime_unix]
    exact decide_eq_true hrange
  have hcounter : ¬c.counter / c.frequency ≤ time := by
    intro hcounter
    rw [setTime_eq hvalid hcounter] at h
    cases h
  have hrest : ¬c.frequency ≤ c.counter % c.frequency + 0 := by
    rw [UInt32.add_zero, UInt32.not_le]
    exact UInt32.mod_lt _ c.frequency_pos
  refine ⟨hcounter, ?_⟩
  simp only [setTime, hvalid, if_true, hcounter, if_false, getTime, hrest]

/-- A time that is set is one the counter has not passed. -/
theorem counter_le_of_setTime (h : (c.setTime time).1 = true) : c.counter / c.frequency ≤ time := by
  unfold setTime at h
  split at h
  · dsimp only at h
    split at h
    · assumption
    · cases h
  · cases h

/-- Setting the time leaves the time zone. -/
theorem setTime_tzOffset (time : UInt32) (c : WallClock) :
    (c.setTime time).2.tzOffset = c.tzOffset := by
  unfold setTime
  split
  · dsimp only
    split <;> rfl
  · rfl

/-- A time that is set is read back. -/
theorem getTime_setTime (h : (c.setTime time).1 = true) : (c.setTime time).2.getTime = time := by
  unfold setTime at h ⊢
  split at h
  · rename_i hvalid
    dsimp only at h ⊢
    split at h
    · rename_i hcounter
      have hrest : ¬c.frequency ≤ c.counter % c.frequency + 0 := by
        rw [UInt32.add_zero, UInt32.not_le]
        exact UInt32.mod_lt _ c.frequency_pos
      simp only [hvalid, if_true, hcounter, getTime, hrest, if_false]
      exact UInt32.sub_add_cancel _ _
    · cases h
  · cases h

/-- The date that is read back is that of the time. -/
theorem setTime_getDatetime (h : (c.setTime time).1 = true) :
    (c.setTime time).2.getDatetime = convertTimeToDate time c.tzOffset := by
  rw [getDatetime, getTime_setTime h, setTime_tzOffset]

end WallClock

end Uiso.Gecko
