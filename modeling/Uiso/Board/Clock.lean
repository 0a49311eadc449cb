/-
  Board/Clock.lean --- what the board makes of the wall clock: the date `BOARD_Init` sets,
  and the file time stamps of `get_fattime` (board.c, board_sd_card.c).

  A FAT time stamp is a word of six fields, year first.  It is built by shifts without
  masks, of a year that counts from 1980: a year before that wraps around and sorts behind
  all others.  The dates themselves come from the clock in order, but for the two last days
  of 1972, which it shows as one.
-/
import Uiso.Gecko.WallClock

set_option autoImplicit false

namespace Uiso.Board

open Uiso.Foundation
open Uiso.Gecko

/-! ## `BOARD_Init` -/

/-- The date `BOARD_Init` builds, in a structure it has not initialised. -/
def defaultDate (date : SleeptimerDate) : SleeptimerDate :=
  (buildDatetime date (2022 - 1900) 10 11 10 0 0 1).2

/-- `BOARD_Init`, as far as the wall clock is concerned. -/
def boardInitClock (date : SleeptimerDate) (c : WallClock) : WallClock :=
  (c.setDatetime (defaultDate date)).2

theorem defaultDate_eq (date : SleeptimerDate) :
    defaultDate date = ⟨0, 0, 10, 11, 10, 122, 5, 315, 1⟩ := by
  have hlength : (daysInMonthFrom (isLeapYear 122))[10]? = some 30 := by decide
  have hdayOfYear : computeDayOfYear 10 11 (isLeapYear 122) = 315 := by decide
  have hdayOfWeek : computeDayOfWeek 19307 = 5 := by decide
  simp [defaultDate, buildDatetime, isValidDate, timeUnixYearMax, hlength, hdayOfYear, hdayOfWeek]

theorem convertDateToTime_default :
    convertDateToTime ⟨0, 0, 10, 11, 10, 122, 5, 315, 1⟩ = some 1668160799 := by
  decide

/-- `BOARD_Init` sets the clock, with a time zone of one second from UTC, unless the counter
has passed the default date. -/
theorem boardInitClock_eq (date : SleeptimerDate) {c : WallClock}
    (hcounter : c.counter / c.frequency ≤ 1668160799) :
    (boardInitClock date c).tzOffset = 1 ∧ (boardInitClock date c).getTime = 1668160799 := by
  have hdate : isValidDate ⟨0, 0, 10, 11, 10, 122, 5, 315, 1⟩ = true := by decide
  have hset : c.setTime 1668160799 = _ := WallClock.setTime_eq (by decide) hcounter
  have htime : (c.setTime 1668160799).2.getTime = 1668160799 :=
    WallClock.getTime_setTime (by rw [hset])
  have hclock : boardInitClock date c = { (c.setTime 1668160799).2 with tzOffset := 1 } := by
    simp only [boardInitClock, defaultDate_eq, WallClock.setDatetime, hdate, if_true,
      convertDateToTime_default, hset]
  rw [hclock]
  exact ⟨rfl, htime⟩

/-! ## File time stamps -/

/-- The expression `get_fattime` returns; `date.year - 80` is one of `int`. -/
def fattimeOf (date : SleeptimerDate) : UInt32 :=
  UInt32.ofInt ((date.year.toNat : Int) - 80) <<< 25 |||
    (date.month.toUInt32 + 1) <<< 21 |||
    date.monthDay.toUInt32 <<< 16 |||
    date.hour.toUInt32 <<< 11 |||
    date.min.toUInt32 <<< 5 |||
    date.sec.toUInt32 >>> 1

/-- `get_fattime`; when there is no date, `date` is what the stack held. -/
def getFattime (date : SleeptimerDate) (c : WallClock) : UInt32 :=
  fattimeOf (c.getDatetime.getD date)

/-- A field of `j` bits put behind the fields before it, with `k` bits left behind it. -/
theorem or_field (a : Nat) {b j : Nat} (k : Nat) (h : b < 2 ^ j) :
    a * 2 ^ (j + k) ||| b * 2 ^ k = (a * 2 ^ j + b) * 2 ^ k := by
  have hfits : b * 2 ^ k < 2 ^ (j + k) := by
    rw [Nat.pow_add]
    exact Nat.mul_lt_mul_of_pos_right h (Nat.two_pow_pos k)
  rw [← Nat.shiftLeft_eq, ← Nat.shiftLeft_add_eq_or_of_lt hfits, Nat.shiftLeft_eq, Nat.pow_add,
    ← Nat.mul_assoc, ← Nat.add_mul]

/-- A field shifted to its place, when it fits there. -/
theorem toNat_shiftLeft_eq {x k : UInt32} (n : Nat) (hk : k.toNat = n) (hn : n < 32)
    (h : x.toNat < 2 ^ (32 - n)) : (x <<< k).toNat = x.toNat * 2 ^ n := by
  have hfits : x.toNat * 2 ^ n < 2 ^ 32 := by
    have hsplit : 2 ^ (32 - n) * 2 ^ n = 2 ^ 32 := by
      rw [← Nat.pow_add]
      congr 1
      omega
    rw [← hsplit]
    exact Nat.mul_lt_mul_of_pos_right h (Nat.two_pow_pos n)
  rw [UInt32.toNat_shiftLeft, hk, Nat.mod_eq_of_lt hn, Nat.shiftLeft_eq, Nat.mod_eq_of_lt hfits]

/-- The year from 1980, in seven bits. -/
theorem yearField_toNat (year : UInt16) :
    (UInt32.ofInt ((year.toNat : Int) - 80) <<< 25).toNat = (year.toNat + 48) % 128 * 2 ^ 25 := by
  have hyear := year.toNat_lt
  have hint : (UInt32.ofInt ((year.toNat : Int) - 80)).toNat =
      (((year.toNat : Int) - 80) % 2 ^ 32).toNat := by
    simp only [UInt32.ofInt, UInt32.toNat_ofNat']
    omega
  rw [UInt32.toNat_shiftLeft, hint, Nat.shiftLeft_eq]
  simp only [UInt32.reduceToNat, Nat.reduceMod, Nat.reducePow]
  omega

/-- The fields of a time stamp, when none is too long for its place. -/
theorem fattimeOf_toNat {date : SleeptimerDate} (hmonth : date.month.toNat < 15)
    (hday : date.monthDay.toNat < 32) (hhour : date.hour.toNat < 32) (hmin : date.min.toNat < 64)
    (hsec : date.sec.toNat < 64) :
    (fattimeOf date).toNat =
      ((((((date.year.toNat + 48) % 128) * 2 ^ 4 + (date.month.toNat + 1)) * 2 ^ 5 +
        date.monthDay.toNat) * 2 ^ 5 + date.hour.toNat) * 2 ^ 6 + date.min.toNat) * 2 ^ 5 +
        date.sec.toNat / 2 := by
  have hmonthNat : (date.month.toUInt32 + 1).toNat = date.month.toNat + 1 := by
    rw [UInt32.toNat_add, UInt8.toNat_toUInt32, UInt32.toNat_one]
    omega
  have hmonth' : ((date.month.toUInt32 + 1) <<< 21).toNat = (date.month.toNat + 1) * 2 ^ 21 := by
    rw [toNat_shiftLeft_eq 21 rfl (by decide) (by rw [hmonthNat]; omega), hmonthNat]
  have hday' : (date.monthDay.toUInt32 <<< 16).toNat = date.monthDay.toNat * 2 ^ 16 :=
    toNat_shiftLeft_eq 16 rfl (by decide) (by rw [UInt8.toNat_toUInt32]; omega)
  have hhour' : (date.hour.toUInt32 <<< 11).toNat = date.hour.toNat * 2 ^ 11 :=
    toNat_shiftLeft_eq 11 rfl (by decide) (by rw [UInt8.toNat_toUInt32]; omega)
  have hmin' : (date.min.toUInt32 <<< 5).toNat = date.min.toNat * 2 ^ 5 :=
    toNat_shiftLeft_eq 5 rfl (by decide) (by rw [UInt8.toNat_toUInt32]; omega)
  have hsec' : (date.sec.toUInt32 >>> 1).toNat = date.sec.toNat / 2 * 2 ^ 0 := by
    rw [UInt32.toNat_shiftRight, UInt8.toNat_toUInt32, Nat.shiftRight_eq_div_pow]
    simp
  simp only [fattimeOf, UInt32.toNat_or, yearField_toNat, hmonth', hday', hhour', hmin', hsec']
  rw [or_field (j := 4) _ 21 (by omega), or_field (j := 5) _ 16 (by omega),
    or_field (j := 5) _ 11 (by omega), or_field (j := 6) _ 5 (by omega),
    or_field (j := 5) _ 0 (by omega), Nat.pow_zero, Nat.mul_one]

/-! ## The order of time stamps -/

/-- Where a time stamp has the fields of a date. -/
structure Decodes (stamp : UInt32) (d : SleeptimerDate) : Prop where
  year : stamp.toNat / 2 ^ 25 + 80 = d.year.toNat
  month : stamp.toNat / 2 ^ 21 % 2 ^ 4 = d.month.toNat + 1
  day : stamp.toNat / 2 ^ 16 % 2 ^ 5 = d.monthDay.toNat
  hour : stamp.toNat / 2 ^ 11 % 2 ^ 5 = d.hour.toNat
  minute : stamp.toNat / 2 ^ 5 % 2 ^ 6 = d.min.toNat
  second : stamp.toNat % 2 ^ 5 = d.sec.toNat / 2

/-- From 1980 on, no field is lost. -/
theorem decodes_fattimeOf {d : SleeptimerDate} (hyear : 80 ≤ d.year.toNat ∧ d.year.toNat < 208)
    (hmonth : d.month.toNat < 15) (hday : d.monthDay.toNat < 32) (hhour : d.hour.toNat < 32)
    (hmin : d.min.toNat < 64) (hsec : d.sec.toNat < 64) : Decodes (fattimeOf d) d := by
  have hword := fattimeOf_toNat hmonth hday hhour hmin hsec
  constructor <;> omega

/-- The local time of a clock. -/
def clockTime (c : WallClock) : Nat := localTime c.getTime c.tzOffset

/-- The first second of 1980. -/
def firstOf1980 : Nat := 3652 * 86400

/-- The upper half of a time stamp. -/
def dateField (x : DayFields) : Nat :=
  ((118 + x.fullYear) % 128 * 2 ^ 4 + (x.month + 1)) * 2 ^ 5 + (x.monthDay + 1)

/-- Its lower half. -/
def timeField (u : Nat) : Nat := (u / 60 / 60 % 24 * 2 ^ 6 + u / 60 % 60) * 2 ^ 5 + u % 60 / 2

/-- The fields of a date are in their ranges. -/
structure InRange (x : DayFields) : Prop where
  year : x.fullYear < 128
  month : x.month ≤ 12
  day : x.monthDay < 31
  yearDay : x.dayOfYear < 366

/-- The fields of the structure, one by one. -/
theorem dateOf_toNat (u : Nat) (timeZone : Int) {x : DayFields} (h : InRange x) :
    (dateOf u timeZone x).year.toNat = 70 + x.fullYear ∧
      (dateOf u timeZone x).month.toNat = x.month ∧
      (dateOf u timeZone x).monthDay.toNat = x.monthDay + 1 ∧
      (dateOf u timeZone x).hour.toNat = u / 60 / 60 % 24 ∧
      (dateOf u timeZone x).min.toNat = u / 60 % 60 ∧
      (dateOf u timeZone x).sec.toNat = u % 60 := by
  have hyear : x.fullYear < 130 := Nat.lt_of_lt_of_le h.year (by decide)
  obtain ⟨hdate, -⟩ := dateOf_fields u timeZone hyear h.month h.day h.yearDay
  simp only [SleeptimerDate.dateTime, Calendar.DateTime.mk.injEq] at hdate
  omega

theorem fattimeOf_dateOf (u : Nat) (timeZone : Int) {x : DayFields} (h : InRange x) :
    (fattimeOf (dateOf u timeZone x)).toNat = dateField x * 2 ^ 16 + timeField u := by
  have hmonth := h.month
  have hday := h.day
  obtain ⟨hyear', hmonth', hday', hhour', hmin', hsec'⟩ := dateOf_toNat u timeZone h
  rw [fattimeOf_toNat (by omega) (by omega) (by omega) (by omega) (by omega), hyear', hmonth',
    hday', hhour', hmin', hsec', dateField, timeField]
  omega

theorem timeField_lt (u : Nat) : timeField u < 2 ^ 16 := by
  unfold timeField
  omega

/-- The lower half is in the order of the seconds of the day, two by two. -/
theorem timeField_le_iff (u u' : Nat) :
    timeField u ≤ timeField u' ↔ u % 86400 / 2 ≤ u' % 86400 / 2 := by
  have hsplit : ∀ u,
      u % 86400 / 2 = 1800 * (u / 60 / 60 % 24) + 30 * (u / 60 % 60) + u % 60 / 2 := by
    intro u
    omega
  have hmin : ∀ u, u / 60 % 60 < 60 := fun u => Nat.mod_lt _ (by decide)
  have hsec : ∀ u, u % 60 / 2 < 30 := by
    intro u
    omega
  have := hmin u
  have := hmin u'
  have := hsec u
  have := hsec u'
  rw [hsplit, hsplit, timeField, timeField]
  -- both sides compare hours, then minutes, then seconds
  rcases Nat.lt_trichotomy (u / 60 / 60 % 24) (u' / 60 / 60 % 24) with h | h | h <;>
    rcases Nat.lt_trichotomy (u / 60 % 60) (u' / 60 % 60) with m | m | m <;> omega

/-- Dates on one side of 1980 have their upper halves in order. -/
theorem dateField_lt {x x' : DayFields} (h : InRange x) (h' : InRange x') (hlt : x.Before x')
    (hside : x.fullYear < 10 ↔ x'.fullYear < 10) : dateField x < dateField x' := by
  have := h.year
  have := h'.year
  have := h.month
  have := h'.month
  have := h.day
  have := h'.day
  unfold dateField
  unfold DayFields.Before at hlt
  omega

/-- A date before 1980 sorts behind every later one. -/
theorem dateField_gt {x x' : DayFields} (h' : InRange x')
    (hbefore : x.fullYear < 10) (hafter : 10 ≤ x'.fullYear) : dateField x' < dateField x := by
  have := h'.year
  have := h'.month
  have := h'.day
  unfold dateField
  omega

/-- The years before 1980 are the days before it. -/
theorem fullYear_lt_iff {days : Nat} {x : DayFields} (hdays : days < 49711)
    (hx : dayFields days = some x) : x.fullYear < 10 ↔ days < 3652 := by
  by_cases h1095 : days = 1095
  · rw [h1095, dayFields_1095] at hx
    rw [← Option.some.inj hx, h1095]
    decide
  · obtain ⟨hday, hr, -⟩ := dayFields_inv hdays h1095 hx
    split at hr <;> omega

/-- A clock in the range of the RTC shows a date, and stamps files with it. -/
theorem getFattime_eq {c : WallClock} (hvalid : isValidTime c.getTime .unix c.tzOffset = true)
    (hrange : clockTime c ≤ 0x7FFFFFFF) (date : SleeptimerDate) :
    ∃ x, dayFields (clockTime c / 86400) = some x ∧ InRange x ∧
      c.getDatetime = some (dateOf (clockTime c) c.tzOffset x) ∧
      (getFattime date c).toNat = dateField x * 2 ^ 16 + timeField (clockTime c) := by
  obtain ⟨x, hx, -, hmonth, hday, hyearDay⟩ :=
    dayFields_bounds (clockTime c / 86400) (by omega)
  have hyear : x.fullYear < 128 := by
    by_cases h1095 : clockTime c / 86400 = 1095
    · rw [h1095, dayFields_1095] at hx
      rw [← Option.some.inj hx]
      decide
    · have hdays := (dayFields_inv (by omega) h1095 hx).1
      omega
  have hdate : c.getDatetime = some (dateOf (clockTime c) c.tzOffset x) :=
    convertTimeToDate_of_valid hvalid hx
  refine ⟨x, hx, ⟨hyear, hmonth, hday, hyearDay⟩, hdate, ?_⟩
  rw [getFattime, hdate, Option.getD_some]
  exact fattimeOf_dateOf _ _ ⟨hyear, hmonth, hday, hyearDay⟩

/-- From 1980 on a time stamp has the fields of the date. -/
def StampsDate (date : SleeptimerDate) (c : WallClock) : Prop :=
  firstOf1980 ≤ clockTime c → ∃ d, c.getDatetime = some d ∧ Decodes (getFattime date c) d

theorem stampsDate_of_valid {c : WallClock}
    (hvalid : isValidTime c.getTime .unix c.tzOffset = true) (hrange : clockTime c ≤ 0x7FFFFFFF)
    (date : SleeptimerDate) : StampsDate date c := by
  intro h1980
  obtain ⟨x, hx, hin, hdate, -⟩ := getFattime_eq hvalid hrange date
  have hbefore := fullYear_lt_iff (by omega) hx
  have hyear := hin.year
  have hmonth := hin.month
  have hday := hin.day
  obtain ⟨hyear', hmonth', hday', hhour', hmin', hsec'⟩ :=
    dateOf_toNat (clockTime c) c.tzOffset hin
  refine ⟨_, hdate, ?_⟩
  rw [getFattime, hdate, Option.getD_some]
  unfold firstOf1980 at h1980
  exact decodes_fattimeOf (by omega) (by omega) (by omega) (by omega) (by omega) (by omega)

/-- The time stamps of two clocks: the first is not greater, and both have the fields of
their dates. -/
structure Stamped (date date' : SleeptimerDate) (c c' : WallClock) : Prop where
  ordered : getFattime date c ≤ getFattime date' c'
  decodes : StampsDate date c
  decodes' : StampsDate date' c'

/-- Local times on the two sides of 1980. -/
def AcrossYear1980 (u u' : Nat) : Prop := u < firstOf1980 ∧ firstOf1980 ≤ u'

/-- Local times of the two last days of 1972, the second at an earlier time of its day. -/
def OnShownTwice (u u' : Nat) : Prop :=
  u / 86400 = 1094 ∧ u' / 86400 = 1095 ∧ u' % 86400 / 2 < u % 86400 / 2

/-- The order of two time stamps, from their halves. -/
theorem stamp_le_iff {u u' : Nat} {x x' : DayFields} (hle : u ≤ u') (hu' : u' ≤ 0x7FFFFFFF)
    (hx : dayFields (u / 86400) = some x) (hx' : dayFields (u' / 86400) = some x')
    (hin : InRange x) (hin' : InRange x') :
    dateField x * 2 ^ 16 + timeField u ≤ dateField x' * 2 ^ 16 + timeField u' ↔
      ¬AcrossYear1980 u u' ∧ ¬OnShownTwice u u' := by
  have htime := timeField_lt u
  have htime' := timeField_lt u'
  have htimes := timeField_le_iff u u'
  have hside := fullYear_lt_iff (by omega) hx
  have hside' := fullYear_lt_iff (by omega) hx'
  unfold AcrossYear1980 OnShownTwice firstOf1980
  rcases Nat.lt_or_eq_of_le (Nat.div_le_div_right (c := 86400) hle) with hlt | heq
  · rcases dayFields_before hlt (by omega) hx hx' with hbefore | ⟨hday, hday', rfl⟩
    · -- the two last days of 1972 have one date, which is not before itself
      have hdates : ¬(u / 86400 = 1094 ∧ u' / 86400 = 1095) := by
        rintro ⟨hday, hday'⟩
        rw [hday, dayFields_1094] at hx
        rw [hday'] at hx'
        obtain rfl := Option.some.inj (hx.symm.trans hx')
        unfold DayFields.Before at hbefore
        omega
      by_cases hacross : x.fullYear < 10 ∧ 10 ≤ x'.fullYear
      · have hgt := dateField_gt hin' hacross.1 hacross.2
        omega
      · have hdate := dateField_lt hin hin' hbefore (by unfold DayFields.Before at hbefore; omega)
        omega
    · omega
  · rw [heq] at hx
    obtain rfl := Option.some.inj (hx.symm.trans hx')
    omega

/-- File time stamps are in the order of the clock, and have the fields of its date from
1980 on, except for two times on the two sides of 1980, or on the two last days of 1972. -/
theorem fattime_ordered_iff (date date' : SleeptimerDate) (c c' : WallClock)
    (htz : c'.tzOffset = c.tzOffset) (hvalid : isValidTime c.getTime .unix c.tzOffset = true)
    (hvalid' : isValidTime c'.getTime .unix c'.tzOffset = true)
    (hrange : clockTime c' ≤ 0x7FFFFFFF) (hle : c.getTime ≤ c'.getTime) :
    Stamped date date' c c' ↔
      ¬AcrossYear1980 (clockTime c) (clockTime c') ∧
        ¬OnShownTwice (clockTime c) (clockTime c') := by
  have hlocal : clockTime c ≤ clockTime c' := by
    have h := localTime_eq hvalid
    have h' := localTime_eq hvalid'
    rw [UInt32.le_iff_toNat_le] at hle
    rw [htz] at h'
    unfold clockTime
    rw [htz]
    omega
  obtain ⟨x, hx, hin, -, hstamp⟩ := getFattime_eq hvalid (Nat.le_trans hlocal hrange) date
  obtain ⟨x', hx', hin', -, hstamp'⟩ := getFattime_eq hvalid' hrange date'
  rw [← stamp_le_iff hlocal hrange hx hx' hin hin', ← hstamp, ← hstamp',
    ← UInt32.le_iff_toNat_le]
  constructor
  · intro h
    exact h.ordered
  · intro h
    exact ⟨h, stampsDate_of_valid hvalid (Nat.le_trans hlocal hrange) date,
      stampsDate_of_valid hvalid' hrange date'⟩

/-- The RTC at a time, with the time zone of `BOARD_Init`. -/
def clockAt (time : UInt32) : WallClock := ⟨time, 0, 1, 0, 32768, by decide⟩

/-- What the stack may hold. -/
def anyDate : SleeptimerDate := ⟨0, 0, 0, 0, 0, 0, 0, 0, 0⟩

theorem fattime_ordered_iff_2022 :
    Stamped anyDate anyDate (clockAt 1668160799) (clockAt 1668160860) := by
  refine (fattime_ordered_iff anyDate anyDate (clockAt 1668160799) (clockAt 1668160860) rfl
    (by decide) (by decide) (by decide) (by decide)).mpr ⟨?_, ?_⟩
  · unfold AcrossYear1980
    decide
  · unfold OnShownTwice
    decide

/-- A file of the last second of 1979 sorts behind one of the first of 1980. -/
theorem fattime_unordered_1980 :
    ¬∀ (date date' : SleeptimerDate) (c c' : WallClock), c'.tzOffset = c.tzOffset →
      isValidTime c.getTime .unix c.tzOffset = true →
      isValidTime c'.getTime .unix c'.tzOffset = true → clockTime c' ≤ 0x7FFFFFFF →
      c.getTime ≤ c'.getTime → Stamped date date' c c' := by
  intro h
  have hstamped := h anyDate anyDate (clockAt 315532798) (clockAt 315532799) rfl (by decide)
    (by decide) (by decide) (by decide)
  exact absurd hstamped.ordered (by decide)

end Uiso.Board
