/-
  Gecko/Calendar.lean --- dates of the bundled Gecko SDK (`sl_sleeptimer.c`): how a time
  stamp becomes a calendar date and back.

  The years of a date count from 1900.  `sl_sleeptimer_convert_time_to_date` estimates the
  year by dividing the days by 365, corrects the estimate by the leap days up to it, and
  finds the month in a table with a row for leap years.

  THE DAYS IT GETS WRONG.  `TIME_LEAP_DAYS_UP_TO_YEAR` is one for the year 1972, whose
  leap day is still to come, so that 31 December 1972 becomes the day before it.  And
  `is_leap_year` is asked about a year counted from 1900, so that 2000 is not a leap year:
  29 February 2000 and the days after it become the next day, and 31 December 2000 the
  first of a thirteenth month.  `shownDay` says which day is shown for a day, and every
  other day up to 2099 is shown as it is.
-/
import Uiso.Foundation.Calendar
import Uiso.Gecko.Sleeptimer

set_option autoImplicit false

namespace Uiso.Gecko

open Uiso.Foundation
open Uiso.Foundation.Calendar (DateTime IsUtc monthLengths isLeap daysBeforeYear unixEpoch
  daysBeforeYear_unix isLeap_unix sum_monthLengths)

/-! ## The source -/

/-- `sl_sleeptimer_date_t` -/
structure SleeptimerDate where
  sec : UInt8
  min : UInt8
  hour : UInt8
  monthDay : UInt8
  /-- from 0 for January -/
  month : UInt8
  /-- from 1900 -/
  year : UInt16
  /-- from 0 for Sunday -/
  dayOfWeek : UInt8
  /-- from 1 -/
  dayOfYear : UInt16
  /-- in seconds from UTC -/
  timeZone : Int
  deriving DecidableEq, Repr

/-- `TIME_LEAP_DAYS_UP_TO_YEAR`; the division is one of `int`. -/
def timeLeapDaysUpToYear (year : Nat) : Nat := (((year : Int) - 3).tdiv 4 + 1).toNat

/-- `is_leap_year` -/
def isLeapYear (year : Nat) : Bool := year % 4 == 0 && (year % 100 != 0 || year % 400 == 0)

/-- `days_in_month` -/
def daysInMonth : List (List Nat) :=
  [[31, 28, 31, 30, 31, 30, 31, 31, 30, 31, 30, 31],
   [31, 29, 31, 30, 31, 30, 31, 31, 30, 31, 30, 31]]

/-- A row of the table and what lies behind it. -/
def daysInMonthFrom (leapYear : Bool) : List Nat :=
  (daysInMonth.drop (if leapYear then 1 else 0)).flatten

/-- `compute_day_of_week` -/
def computeDayOfWeek (day : Nat) : Nat := (day + 4) % 7

/-- `compute_day_of_year` -/
def computeDayOfYear (month day : Nat) (leapYear : Bool) : Nat :=
  ((daysInMonthFrom leapYear).take month).sum + day

/-- `full_year` and `leap_day` of a number of days since 1970. -/
def fullYears (days : Nat) : Nat × Nat :=
  let fullYear := days / 365 % 256
  if 2 < fullYear then
    let leapDay := timeLeapDaysUpToYear fullYear % 256
    let fullYear := (days - leapDay) / 365 % 256
    (fullYear, timeLeapDaysUpToYear fullYear % 256)
  else (fullYear, 0)

/-- The locals of `sl_sleeptimer_convert_time_to_date` once the month is found: the year
from 1970, and the days from 0. -/
structure DayFields where
  fullYear : Nat
  dayOfYear : Nat
  month : Nat
  monthDay : Nat
  deriving DecidableEq, Repr

/-- The date of a number of days since 1970; `none` when the loop runs off the table. -/
def dayFields (days : Nat) : Option DayFields :=
  let (fullYear, leapDay) := fullYears days
  let dayOfYear := days - leapDay - 365 * fullYear
  (descend (daysInMonthFrom (isLeapYear (70 + fullYear))) dayOfYear).map fun found =>
    ⟨fullYear, dayOfYear, found.1, found.2⟩

/-- The time stamp in the time zone: `time += time_zone`. -/
def localTime (time : UInt32) (timeZone : Int) : Nat :=
  (((time.toNat : Int) + timeZone) % 2 ^ 32).toNat

/-- The date structure of a local time. -/
def dateOf (time : Nat) (timeZone : Int) (x : DayFields) : SleeptimerDate where
  sec := UInt8.ofNat (time % 60)
  min := UInt8.ofNat (time / 60 % 60)
  hour := UInt8.ofNat (time / 60 / 60 % 24)
  monthDay := UInt8.ofNat (x.monthDay + 1)
  month := UInt8.ofNat x.month
  year := UInt16.ofNat (70 + x.fullYear)
  dayOfWeek := UInt8.ofNat (computeDayOfWeek (time / 60 / 60 / 24))
  dayOfYear := UInt16.ofNat (x.dayOfYear + 1)
  timeZone := timeZone

/-- `sl_sleeptimer_convert_time_to_date`; `none` is `SL_STATUS_INVALID_PARAMETER`. -/
def convertTimeToDate (time : UInt32) (timeZone : Int) : Option SleeptimerDate :=
  if isValidTime time .unix timeZone then
    let time := localTime time timeZone
    (dayFields (time / 60 / 60 / 24)).map (dateOf time timeZone)
  else none

/-- `TIME_UNIX_YEAR_MAX` -/
def timeUnixYearMax : Nat := 2038 - 1900

/-- `is_valid_date`, of a date that is there. -/
def isValidDate (date : SleeptimerDate) : Bool :=
  if timeUnixYearMax < date.year.toNat ∨ 11 < date.month.toNat then false
  else if date.monthDay = 0 ∨
      ((daysInMonthFrom (isLeapYear date.year.toNat))[date.month.toNat]?).getD 0 <
        date.monthDay.toNat then false
  else if 23 < date.hour ∨ 59 < date.min ∨ 59 < date.sec then false
  else if date.year.toNat = timeUnixYearMax then
    -- valid until the 19th of January 2038 at 03:14:07, each field by itself
    !(decide (0 < date.month) || decide (19 < date.monthDay) || decide (3 < date.hour) ||
      decide (14 < date.min) || decide (7 < date.sec))
  else true

/-- `sl_sleeptimer_convert_date_to_time`; `none` is `SL_STATUS_INVALID_PARAMETER`. -/
def convertDateToTime (date : SleeptimerDate) : Option UInt32 :=
  if isValidDate date then
    let fullYear : Nat := (date.year.toNat + 2 ^ 32 - 70) % 2 ^ 32 % 256
    let leapDays : Nat := if 2 < fullYear then timeLeapDaysUpToYear fullYear % 256 else 0
    let monthDays : Nat := (leapDays +
      ((daysInMonthFrom (isLeapYear date.year.toNat)).take date.month.toNat).sum +
      (date.monthDay.toNat - 1)) % 2 ^ 16
    let time : Int := fullYear * (365 * 86400) + monthDays * 86400 +
      (3600 * date.hour.toNat + 60 * date.min.toNat + date.sec.toNat) - date.timeZone
    some (UInt32.ofNat (time % 2 ^ 32).toNat)
  else none

/-- `sl_sleeptimer_build_datetime` into the structure `date`: is it `SL_STATUS_OK`, and
the structure. -/
def buildDatetime (date : SleeptimerDate) (year : UInt16) (month monthDay hour min sec : UInt8)
    (tzOffset : Int) : Bool × SleeptimerDate :=
  let date := { date with
    year := if year < 1900 then year else year - 1900
    month, monthDay, hour, min, sec
    timeZone := tzOffset }
  if isValidDate date then
    let dayOfYear :=
      computeDayOfYear month.toNat monthDay.toNat (isLeapYear date.year.toNat)
    let years := (date.year.toNat + 2 ^ 32 - 70) % 2 ^ 32
    let leapDays := ((years + 2 ^ 32 - 3) % 2 ^ 32) / 4 + 1
    let day := (years * 365 + leapDays + dayOfYear + 2 ^ 32 - 1) % 2 ^ 32
    (true, { date with
      dayOfYear := UInt16.ofNat dayOfYear
      dayOfWeek := UInt8.ofNat (computeDayOfWeek day) })
  else (false, date)

/-! ## The year of a day -/

theorem timeLeapDaysUpToYear_eq {year : Nat} (h : 3 ≤ year) :
    timeLeapDaysUpToYear year = (year + 1) / 4 := by
  have hnonneg : (0 : Int) ≤ (year : Int) - 3 := by omega
  unfold timeLeapDaysUpToYear
  rw [Int.tdiv_eq_ediv_of_nonneg hnonneg]
  omega

/-- The year is found for every other day a time stamp can have. -/
theorem fullYears_eq {days : Nat} (hdays : days < 49711) (hne : days ≠ 1095) :
    ∃ n, fullYears days = (n, (n + 1) / 4) ∧ 365 * n + (n + 1) / 4 ≤ days ∧
      days < 365 * (n + 1) + (n + 2) / 4 := by
  have hfits : days / 365 % 256 = days / 365 := by omega
  by_cases hsmall : days / 365 ≤ 2
  · refine ⟨days / 365, ?_, by omega, by omega⟩
    have hnot : ¬2 < days / 365 := by omega
    simp only [fullYears, hfits, if_neg hnot, Prod.mk.injEq, true_and]
    omega
  · have hleap : timeLeapDaysUpToYear (days / 365) % 256 = (days / 365 + 1) / 4 := by
      rw [timeLeapDaysUpToYear_eq (by omega)]
      omega
    have hyear : (days - (days / 365 + 1) / 4) / 365 % 256 =
        (days - (days / 365 + 1) / 4) / 365 := by omega
    have hthree : 3 ≤ (days - (days / 365 + 1) / 4) / 365 := by omega
    refine ⟨(days - (days / 365 + 1) / 4) / 365, ?_, by omega, by omega⟩
    simp only [fullYears, hfits, if_pos (Nat.not_le.mp hsmall), hleap, hyear,
      timeLeapDaysUpToYear_eq hthree, Prod.mk.injEq, true_and]
    omega

/-- The days of a year, with its leap day. -/
theorem exists_dayOfYear {days n : Nat} (hfirst : 365 * n + (n + 1) / 4 ≤ days)
    (hlast : days < 365 * (n + 1) + (n + 2) / 4) :
    ∃ r, days = 365 * n + (n + 1) / 4 + r ∧ r < if n % 4 = 2 then 366 else 365 := by
  obtain ⟨r, rfl⟩ := Nat.exists_eq_add_of_le hfirst
  refine ⟨r, rfl, ?_⟩
  split <;> omega

/-! ## The month of a day -/

theorem daysInMonthFrom_eq (leapYear : Bool) :
    ∃ more, daysInMonthFrom leapYear = monthLengths leapYear ++ more := by
  cases leapYear with
  | true => exact ⟨[], rfl⟩
  | false => exact ⟨monthLengths true, rfl⟩

/-- In a year of 365 days, the table without a leap day shows the days from 29 February on
of a leap year as the next ones. -/
theorem descend_commonYear {r : Nat} (h : r < 365) :
    descend (daysInMonthFrom false) r =
      descend (monthLengths true) (if r < 59 then r else r + 1) := by
  obtain ⟨fromMarch, more, htable, hleap, hlength⟩ : ∃ fromMarch more,
      daysInMonthFrom false = 31 :: 28 :: (fromMarch ++ more) ∧
        monthLengths true = 31 :: 29 :: fromMarch ∧ fromMarch.sum = 306 :=
    ⟨[31, 30, 31, 30, 31, 31, 30, 31, 30, 31], monthLengths true, rfl, rfl, rfl⟩
  rw [htable, hleap]
  by_cases hjanuary : r < 31
  · have hbefore : r < 59 := by omega
    rw [if_pos hbefore, descend_cons_of_lt _ hjanuary, descend_cons_of_lt _ hjanuary]
  · have hjanuary' : 31 ≤ r := by omega
    rw [descend_cons_of_le _ hjanuary']
    by_cases hfebruary : r < 59
    · have hcommon : r - 31 < 28 := by omega
      have hlong : r - 31 < 29 := by omega
      rw [if_pos hfebruary, descend_cons_of_le _ hjanuary', descend_cons_of_lt _ hcommon,
        descend_cons_of_lt _ hlong]
    · have hcommon : 28 ≤ r - 31 := by omega
      have hlong : 29 ≤ r + 1 - 31 := by omega
      have hjanuary'' : 31 ≤ r + 1 := by omega
      have hsum : r - 31 - 28 < fromMarch.sum := by omega
      have hsame : r + 1 - 31 - 29 = r - 31 - 28 := by omega
      rw [if_neg hfebruary, descend_cons_of_le _ hcommon, descend_append more hsum,
        descend_cons_of_le _ hjanuary'', descend_cons_of_le _ hlong, hsame]

/-! ## The day that is shown -/

/-- The day that is shown for a day since 1970, other than 31 December 2000. -/
def shownDay (days : Nat) : Nat :=
  if days = 1095 then 1094
  else if 11016 ≤ days ∧ days ≤ 11321 then days + 1
  else days

/-- The fields show a date of the calendar, and the year and its days are right. -/
structure DayFields.Shows (x : DayFields) (days : Nat) : Prop where
  year : x.fullYear < 130
  dayOfYear : days ≠ 1095 →
    x.dayOfYear < 366 ∧ daysBeforeYear (1970 + x.fullYear) + x.dayOfYear = unixEpoch + days
  length : ∃ len, (monthLengths (isLeap (1970 + x.fullYear)))[x.month]? = some len ∧
    x.monthDay < len
  ordinal : daysBeforeYear (1970 + x.fullYear) +
    (((monthLengths (isLeap (1970 + x.fullYear))).take x.month).sum + x.monthDay) =
      unixEpoch + shownDay days

theorem dayFields_1095 : dayFields 1095 = some ⟨2, 364, 11, 29⟩ := by decide

/-- 31 December 2000 becomes the first of the thirteenth month. -/
theorem dayFields_11322 : dayFields 11322 = some ⟨30, 365, 12, 0⟩ := by decide

theorem shows_1095 : DayFields.Shows ⟨2, 364, 11, 29⟩ 1095 where
  year := by decide
  dayOfYear := fun h => absurd rfl h
  length := ⟨31, by decide, by decide⟩
  ordinal := by decide

/-- What the loop finds, in a year that is found. -/
theorem dayFields_of_descend {n r i d : Nat}
    (hyear : fullYears (365 * n + (n + 1) / 4 + r) = (n, (n + 1) / 4))
    (hfound : descend (daysInMonthFrom (isLeapYear (70 + n))) r = some (i, d)) :
    dayFields (365 * n + (n + 1) / 4 + r) = some ⟨n, r, i, d⟩ := by
  have hrest : 365 * n + (n + 1) / 4 + r - (n + 1) / 4 - 365 * n = r := by omega
  simp only [dayFields, hyear, hrest, hfound, Option.map_some]

/-- `is_leap_year` is right for every year up to 2099 but 2000. -/
theorem isLeapYear_eq {n : Nat} (hn : n < 130) (hne : n ≠ 30) :
    isLeapYear (70 + n) = isLeap (1970 + n) := by
  have hiff : (70 + n) % 4 = 0 ∧ ((70 + n) % 100 ≠ 0 ∨ (70 + n) % 400 = 0) ↔ n % 4 = 2 := by
    omega
  rw [isLeap_unix hn, Bool.eq_iff_iff, decide_eq_true_eq, ← hiff]
  simp [isLeapYear]

/-- A day of a year other than 2000 is shown as it is. -/
theorem shows_of_year {n r : Nat} (hn : n < 130) (h2000 : n ≠ 30)
    (h1095 : 365 * n + (n + 1) / 4 + r ≠ 1095) (hr : r < if n % 4 = 2 then 366 else 365)
    (hyear : fullYears (365 * n + (n + 1) / 4 + r) = (n, (n + 1) / 4)) :
    ∃ x, dayFields (365 * n + (n + 1) / 4 + r) = some x ∧
      x.Shows (365 * n + (n + 1) / 4 + r) := by
  have hbefore : daysBeforeYear (1970 + n) = unixEpoch + 365 * n + (n + 1) / 4 :=
    daysBeforeYear_unix (by omega)
  have hin : r < (monthLengths (isLeap (1970 + n))).sum := by
    rw [sum_monthLengths, isLeap_unix hn]
    simpa using hr
  have hshown : shownDay (365 * n + (n + 1) / 4 + r) = 365 * n + (n + 1) / 4 + r := by
    have hout : ¬(11016 ≤ 365 * n + (n + 1) / 4 + r ∧ 365 * n + (n + 1) / 4 + r ≤ 11321) := by
      split at hr <;> omega
    rw [shownDay, if_neg h1095, if_neg hout]
  obtain ⟨i, d, hfound⟩ := exists_descend hin
  obtain ⟨hsum, hlen⟩ := descend_eq_some hfound
  obtain ⟨more, htable⟩ := daysInMonthFrom_eq (isLeap (1970 + n))
  have hrow : descend (daysInMonthFrom (isLeapYear (70 + n))) r = some (i, d) := by
    rw [isLeapYear_eq hn h2000, htable, descend_append more hin, hfound]
  have hyearDay : r < 366 ∧
      daysBeforeYear (1970 + n) + r = unixEpoch + (365 * n + (n + 1) / 4 + r) := by
    split at hr <;> omega
  refine ⟨_, dayFields_of_descend hyear hrow, hn, fun _ => hyearDay, hlen, ?_⟩
  rw [hsum, hshown]
  exact hyearDay.2

/-- A day of the year 2000 but the last: from 29 February on, it is found in the row of the
other years. -/
theorem shows_of_2000 {r : Nat} (hr : r < 365)
    (hyear : fullYears (365 * 30 + (30 + 1) / 4 + r) = (30, (30 + 1) / 4)) :
    ∃ x, dayFields (365 * 30 + (30 + 1) / 4 + r) = some x ∧
      x.Shows (365 * 30 + (30 + 1) / 4 + r) := by
  have hbefore : daysBeforeYear (1970 + 30) = unixEpoch + 365 * 30 + (30 + 1) / 4 :=
    daysBeforeYear_unix (by decide)
  have hleap : isLeap (1970 + 30) = true := rfl
  obtain ⟨i, d, hfound⟩ : ∃ i d,
      descend (monthLengths true) (if r < 59 then r else r + 1) = some (i, d) := by
    refine exists_descend ?_
    rw [sum_monthLengths, if_pos rfl]
    split <;> omega
  obtain ⟨hsum, hlen⟩ := descend_eq_some hfound
  have hshown : shownDay (365 * 30 + (30 + 1) / 4 + r) =
      365 * 30 + (30 + 1) / 4 + if r < 59 then r else r + 1 := by
    have h1095 : 365 * 30 + (30 + 1) / 4 + r ≠ 1095 := by omega
    rw [shownDay, if_neg h1095]
    split <;> split <;> omega
  have hrow := (descend_commonYear hr).trans hfound
  have hyearDay : r < 366 ∧
      daysBeforeYear (1970 + 30) + r = unixEpoch + (365 * 30 + (30 + 1) / 4 + r) := by
    omega
  have hn : 30 < 130 := by decide
  refine ⟨_, dayFields_of_descend hyear hrow, hn, fun _ => hyearDay, hleap ▸ hlen, ?_⟩
  rw [hleap, hsum, hshown, hbefore, Nat.add_assoc unixEpoch, Nat.add_assoc]

/-- Every day up to 2099 is shown as some day of the calendar, except for 31 December
2000. -/
theorem dayFields_shows {days : Nat} (hdays : days < 47482) (hne : days ≠ 11322) :
    ∃ x, dayFields days = some x ∧ x.Shows days := by
  by_cases h1095 : days = 1095
  · subst h1095
    exact ⟨_, dayFields_1095, shows_1095⟩
  · obtain ⟨n, hyear, hfirst, hlast⟩ := fullYears_eq (by omega) h1095
    obtain ⟨r, rfl, hr⟩ := exists_dayOfYear hfirst hlast
    by_cases h2000 : n = 30
    · subst h2000
      have hr' : r < 365 := by
        rw [if_pos rfl] at hr
        omega
      exact shows_of_2000 hr' hyear
    · exact shows_of_year (by omega) h2000 h1095 hr hyear

/-! ## The order of the days -/

/-- The date is an earlier one. -/
def DayFields.Before (x y : DayFields) : Prop :=
  x.fullYear < y.fullYear ∨
    x.fullYear = y.fullYear ∧ (x.month < y.month ∨ x.month = y.month ∧ x.monthDay < y.monthDay)

/-- The fields of a day whose year is found. -/
theorem dayFields_inv {days : Nat} {x : DayFields} (hdays : days < 49711) (hne : days ≠ 1095)
    (hx : dayFields days = some x) :
    days = 365 * x.fullYear + (x.fullYear + 1) / 4 + x.dayOfYear ∧
      (x.dayOfYear < if x.fullYear % 4 = 2 then 366 else 365) ∧
      descend (daysInMonthFrom (isLeapYear (70 + x.fullYear))) x.dayOfYear =
        some (x.month, x.monthDay) := by
  obtain ⟨n, hyear, hfirst, hlast⟩ := fullYears_eq hdays hne
  obtain ⟨r, rfl, hr⟩ := exists_dayOfYear hfirst hlast
  have hrest : 365 * n + (n + 1) / 4 + r - (n + 1) / 4 - 365 * n = r := by omega
  simp only [dayFields, hyear, hrest, Option.map_eq_some_iff] at hx
  obtain ⟨⟨i, d⟩, hfound, rfl⟩ := hx
  exact ⟨rfl, hr, hfound⟩

/-- A later day of a year other than the odd one has a later date. -/
theorem before_of_lt {days days' : Nat} {x x' : DayFields} (hlt : days < days')
    (hdays : days' < 49711) (hne : days ≠ 1095) (hne' : days' ≠ 1095)
    (hx : dayFields days = some x) (hx' : dayFields days' = some x') : x.Before x' := by
  obtain ⟨hday, hr, hfound⟩ := dayFields_inv (by omega) hne hx
  obtain ⟨hday', hr', hfound'⟩ := dayFields_inv hdays hne' hx'
  rcases Nat.lt_trichotomy x.fullYear x'.fullYear with hyear | hyear | hyear
  · exact .inl hyear
  · refine .inr ⟨hyear, ?_⟩
    rw [← hyear] at hfound' hday'
    have hless : x.dayOfYear < x'.dayOfYear := by omega
    rcases descend_mono (Nat.le_of_lt hless) hfound hfound' with hmonth | ⟨hmonth, hmonthDay⟩
    · exact .inl hmonth
    · have hsum := (descend_eq_some hfound).1
      have hsum' := (descend_eq_some hfound').1
      rw [← hmonth] at hsum'
      exact .inr ⟨hmonth, by omega⟩
  · -- the days of a year come after those of an earlier one
    exfalso
    split at hr' <;> omega

theorem dayFields_1094 : dayFields 1094 = dayFields 1095 := by decide

/-- Days have their dates in order, but 31 December 1972 that of the day before. -/
theorem dayFields_before {days days' : Nat} {x x' : DayFields} (hlt : days < days')
    (hdays : days' < 49711) (hx : dayFields days = some x) (hx' : dayFields days' = some x') :
    x.Before x' ∨ days = 1094 ∧ days' = 1095 ∧ x = x' := by
  by_cases hodd : days' = 1095
  · subst hodd
    rw [← dayFields_1094] at hx'
    rcases Nat.lt_or_eq_of_le (Nat.le_of_lt_succ hlt) with hearlier | rfl
    · exact .inl (before_of_lt hearlier (by decide) (by omega) (by decide) hx hx')
    · exact .inr ⟨rfl, rfl, Option.some.inj (hx.symm.trans hx')⟩
  · by_cases hodd' : days = 1095
    · subst hodd'
      rw [← dayFields_1094] at hx
      exact .inl (before_of_lt (by omega) hdays (by decide) hodd hx hx')
    · exact .inl (before_of_lt hlt hdays hodd' hodd hx hx')

/-! ## The date of a time stamp -/

/-- A date of the source in the terms of the calendar. -/
def SleeptimerDate.dateTime (d : SleeptimerDate) : DateTime where
  year := 1900 + d.year.toNat
  month := d.month.toNat + 1
  day := d.monthDay.toNat
  hour := d.hour.toNat
  minute := d.min.toNat
  second := d.sec.toNat

/-- The time that is shown for a local time, other than those of 31 December 2000. -/
def shownTime (u : Nat) : Nat := 86400 * shownDay (u / 86400) + u % 86400

/-- The days other than those the source shows as others. -/
def ShownAsIs (days : Nat) : Prop := days ≠ 1095 ∧ ¬(11016 ≤ days ∧ days ≤ 11322)

instance (days : Nat) : Decidable (ShownAsIs days) := inferInstanceAs (Decidable (_ ∧ _))

/-- A time less than a day from a local time is shown for it only if it is that time. -/
theorem shown_iff {t u : Nat} (hlate : t < u + 86400) (hearly : u < t + 86400) :
    u / 86400 ≠ 11322 ∧ t = shownTime u ↔ u = t ∧ ShownAsIs (t / 86400) := by
  unfold shownTime shownDay ShownAsIs
  split
  · omega
  · split <;> omega

theorem DayFields.Shows.month_lt {x : DayFields} {days : Nat} (h : x.Shows days) :
    x.month < 12 ∧ x.monthDay < 31 := by
  obtain ⟨len, hlen, hday⟩ := h.length
  have hbound : ∀ leap : Bool, ∀ n ∈ monthLengths leap, n ≤ 31 := by decide
  have hmem := hbound _ len (List.mem_of_getElem? hlen)
  have hindex : x.month < (monthLengths (isLeap (1970 + x.fullYear))).length :=
    (List.getElem?_eq_some_iff.mp hlen).1
  exact ⟨hindex, by omega⟩

theorem toNat_ofNat_uint8 {n : Nat} (h : n < 256) : (UInt8.ofNat n).toNat = n :=
  UInt8.toNat_ofNat_of_lt' h

theorem toNat_ofNat_uint16 {n : Nat} (h : n < 65536) : (UInt16.ofNat n).toNat = n :=
  UInt16.toNat_ofNat_of_lt' h

/-- No field of the structure is too narrow for its value. -/
theorem dateOf_fields (u : Nat) (timeZone : Int) {x : DayFields} (hyear : x.fullYear < 130)
    (hmonth : x.month ≤ 12) (hday : x.monthDay < 31) (hdayOfYear : x.dayOfYear < 366) :
    (dateOf u timeZone x).dateTime =
        ⟨1970 + x.fullYear, x.month + 1, x.monthDay + 1, u / 60 / 60 % 24, u / 60 % 60, u % 60⟩ ∧
      (dateOf u timeZone x).dayOfYear.toNat = x.dayOfYear + 1 := by
  have hyear' : (UInt16.ofNat (70 + x.fullYear)).toNat = 70 + x.fullYear :=
    toNat_ofNat_uint16 (by omega)
  have hmonth' : (UInt8.ofNat x.month).toNat = x.month := toNat_ofNat_uint8 (by omega)
  have hday' : (UInt8.ofNat (x.monthDay + 1)).toNat = x.monthDay + 1 :=
    toNat_ofNat_uint8 (by omega)
  have hhour : (UInt8.ofNat (u / 60 / 60 % 24)).toNat = u / 60 / 60 % 24 :=
    toNat_ofNat_uint8 (by omega)
  have hmin : (UInt8.ofNat (u / 60 % 60)).toNat = u / 60 % 60 :=
    toNat_ofNat_uint8 (by omega)
  have hsec : (UInt8.ofNat (u % 60)).toNat = u % 60 := toNat_ofNat_uint8 (by omega)
  refine ⟨?_, toNat_ofNat_uint16 (by omega)⟩
  simp only [SleeptimerDate.dateTime, dateOf, hyear', hmonth', hday', hhour, hmin, hsec]
  rw [← Nat.add_assoc]

/-- What `sl_sleeptimer_convert_time_to_date` makes of a local time. -/
structure Converted (u : Nat) (d : SleeptimerDate) : Prop where
  utc : ∀ t, IsUtc t d.dateTime ↔ u / 86400 ≠ 11322 ∧ t = shownTime u
  dayOfWeek : d.dayOfWeek.toNat = (u / 86400 + 4) % 7
  dayOfYear : u / 86400 ≠ 1095 →
    daysBeforeYear d.dateTime.year + d.dayOfYear.toNat = unixEpoch + u / 86400 + 1

/-- A date that is found, at a time of its day. -/
theorem isUtc_iff {u day : Nat} {d : DateTime} (hvalid : d.Valid)
    (hordinal : d.ordinal = unixEpoch + day) (hsecond : d.secondOfDay = u % 86400) (t : Nat) :
    IsUtc t d ↔ t = 86400 * day + u % 86400 := by
  constructor
  · intro h
    have hinstant := h.instant
    rw [hordinal, hsecond] at hinstant
    omega
  · rintro rfl
    refine ⟨hvalid, ?_⟩
    rw [hordinal, hsecond]
    omega

theorem secondOfDay_eq (u year month day : Nat) :
    DateTime.secondOfDay ⟨year, month, day, u / 60 / 60 % 24, u / 60 % 60, u % 60⟩ =
      u % 86400 := by
  simp only [DateTime.secondOfDay]
  omega

theorem dateOf_dayOfWeek (u : Nat) (timeZone : Int) (x : DayFields) :
    (dateOf u timeZone x).dayOfWeek.toNat = (u / 86400 + 4) % 7 := by
  have hdays : u / 60 / 60 / 24 = u / 86400 := by omega
  rw [dateOf, hdays, computeDayOfWeek]
  exact toNat_ofNat_uint8 (by omega)

/-- A time of a day that is shown. -/
theorem converted_of_shows {u : Nat} (timeZone : Int) {x : DayFields} (hx : x.Shows (u / 86400))
    (hlast : u / 86400 ≠ 11322) (hdayOfYear : x.dayOfYear < 366) :
    Converted u (dateOf u timeZone x) := by
  obtain ⟨hmonth, hday⟩ := hx.month_lt
  obtain ⟨hdate, hyearDay⟩ :=
    dateOf_fields u timeZone hx.year (Nat.le_of_lt hmonth) hday hdayOfYear
  have hvalid : DateTime.Valid ⟨1970 + x.fullYear, x.month + 1, x.monthDay + 1,
      u / 60 / 60 % 24, u / 60 % 60, u % 60⟩ :=
    ⟨Nat.succ_pos _, Nat.succ_pos _, hx.length, Nat.mod_lt _ (by decide),
      Nat.mod_lt _ (by decide), Nat.mod_lt _ (by decide)⟩
  constructor
  · intro t
    rw [hdate, isUtc_iff hvalid hx.ordinal (secondOfDay_eq u _ _ _), shownTime]
    exact (and_iff_right hlast).symm
  · exact dateOf_dayOfWeek u timeZone x
  · intro hne
    rw [hdate, hyearDay]
    exact congrArg (· + 1) (hx.dayOfYear hne).2

/-- A time of 31 December 2000. -/
theorem converted_11322 {u : Nat} (timeZone : Int) (hday : u / 86400 = 11322) :
    Converted u (dateOf u timeZone ⟨30, 365, 12, 0⟩) := by
  obtain ⟨hdate, hyearDay⟩ := dateOf_fields u timeZone (x := ⟨30, 365, 12, 0⟩) (by decide)
    (by decide) (by decide) (by decide)
  constructor
  · intro t
    refine iff_of_false ?_ fun h => h.1 hday
    intro h
    rw [hdate] at h
    obtain ⟨len, hlen, -⟩ := h.valid.length
    cases hlen
  · exact dateOf_dayOfWeek u timeZone _
  · intro _
    have h2000 : daysBeforeYear 2000 + 366 = unixEpoch + 11322 + 1 := by decide
    rw [hdate, hyearDay, hday]
    exact h2000

/-- The fields of every day up to 2099 are in their ranges. -/
theorem dayFields_bounds (days : Nat) (hdays : days < 47482) :
    ∃ x, dayFields days = some x ∧ x.fullYear < 130 ∧ x.month ≤ 12 ∧ x.monthDay < 31 ∧
      x.dayOfYear < 366 := by
  by_cases hlast : days = 11322
  · exact ⟨_, hlast ▸ dayFields_11322, by decide⟩
  · obtain ⟨x, hx, hshows⟩ := dayFields_shows hdays hlast
    obtain ⟨hmonth, hday⟩ := hshows.month_lt
    refine ⟨x, hx, hshows.year, Nat.le_of_lt hmonth, hday, ?_⟩
    by_cases h1095 : days = 1095
    · rw [h1095, dayFields_1095] at hx
      rw [← Option.some.inj hx]
      decide
    · exact (hshows.dayOfYear h1095).1

/-- A valid time is converted through the fields of its local day. -/
theorem convertTimeToDate_of_valid {time : UInt32} {timeZone : Int} {x : DayFields}
    (hvalid : isValidTime time .unix timeZone = true)
    (hx : dayFields (localTime time timeZone / 86400) = some x) :
    convertTimeToDate time timeZone = some (dateOf (localTime time timeZone) timeZone x) := by
  have hdays : localTime time timeZone / 60 / 60 / 24 = localTime time timeZone / 86400 := by
    omega
  simp only [convertTimeToDate, hvalid, if_true, hdays, hx, Option.map_some]

/-- Every local time up to 2099 is converted, to the time that is shown for it. -/
theorem convertTimeToDate_eq {time : UInt32} {timeZone : Int}
    (hvalid : isValidTime time .unix timeZone = true)
    (hu : localTime time timeZone < 47482 * 86400) :
    ∃ d, convertTimeToDate time timeZone = some d ∧ Converted (localTime time timeZone) d := by
  obtain ⟨x, hx, -, -, -, hdayOfYear⟩ :=
    dayFields_bounds (localTime time timeZone / 86400) (by omega)
  refine ⟨_, convertTimeToDate_of_valid hvalid hx, ?_⟩
  by_cases hlast : localTime time timeZone / 86400 = 11322
  · rw [hlast, dayFields_11322] at hx
    obtain rfl := Option.some.inj hx
    exact converted_11322 timeZone hlast
  · obtain ⟨x', hx', hshows⟩ := dayFields_shows (by omega) hlast
    obtain rfl := Option.some.inj (hx.symm.trans hx')
    exact converted_of_shows timeZone hshows hlast hdayOfYear

/-- Adding the time zone to a valid time does not wrap around. -/
theorem localTime_eq {time : UInt32} {timeZone : Int}
    (hvalid : isValidTime time .unix timeZone = true) :
    (localTime time timeZone : Int) = time.toNat + timeZone := by
  simp only [isValidTime, Bool.and_eq_true, Bool.or_eq_true, decide_eq_true_eq] at hvalid
  have htime := time.toNat_lt
  unfold localTime
  omega

end Uiso.Gecko
