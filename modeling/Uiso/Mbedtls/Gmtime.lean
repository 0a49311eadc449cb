/-
  Mbedtls/Gmtime.lean --- the broken-down time mbedTLS checks certificates with
  (src/mbedtls_adapter/uiso_gmttime.c).

  The adapter copies the fields of an `sl_sleeptimer_date_t` into a `struct tm`.  Its day of
  the year counts from 1 and that of POSIX from 0, so that the result is right for no time;
  on the days the calendar of the SDK shows as they are, it is the only field that is wrong.
  A time that is not converted is not told from one that is.
-/
import Uiso.Gecko.Calendar

set_option autoImplicit false

namespace Uiso.Mbedtls

open Uiso.Foundation.Calendar
open Uiso.Gecko

/-! ## uiso_gmttime.c -/

/-- `struct tm`, without `tm_isdst`, which the adapter leaves as it is. -/
structure Tm where
  sec : Int
  min : Int
  hour : Int
  mday : Int
  mon : Int
  year : Int
  wday : Int
  yday : Int
  deriving DecidableEq, Repr

/-- The assignments to `tm_buf`. -/
def tmOf (date : SleeptimerDate) : Tm where
  wday := date.dayOfWeek.toNat
  yday := date.dayOfYear.toNat
  mon := date.month.toNat
  hour := date.hour.toNat
  min := date.min.toNat
  mday := date.monthDay.toNat
  sec := date.sec.toNat
  year := date.year.toNat

/-- `mbedtls_platform_gmtime_r`: the structure at the pointer it returns.  `date` is what the
local structure holds before the conversion, whose status is not looked at. -/
def mbedtlsPlatformGmtimeR (date : SleeptimerDate) (tt : Option Int64) : Option Tm :=
  match tt with
  | none => none
  | some tt => some (tmOf ((convertTimeToDate (UInt32.ofInt tt.toInt) 0).getD date))

/-! ## Broken-down times -/

/-- The fields POSIX gives a date and time. -/
def posixTm (d : DateTime) : Tm where
  sec := d.second
  min := d.minute
  hour := d.hour
  mday := d.day
  mon := d.month - 1
  year := d.year - 1900
  wday := d.weekday
  yday := d.dayOfYear

/-- The broken-down UTC time of an instant. -/
def BrokenDown (t : Nat) (tm : Tm) : Prop := ∃ d, IsUtc t d ∧ tm = posixTm d

/-- The instant is found again from the year and the day of the year. -/
theorem BrokenDown.instant {t : Nat} {tm : Tm} (h : BrokenDown t tm) :
    86400 * (daysBeforeYear (tm.year + 1900).toNat + tm.yday) + 3600 * tm.hour + 60 * tm.min +
      tm.sec = 86400 * unixEpoch + t := by
  obtain ⟨d, hutc, rfl⟩ := h
  have hyear : ((d.year : Int) - 1900 + 1900).toNat = d.year := by omega
  have hinstant := hutc.instant
  simp only [DateTime.ordinal, DateTime.secondOfDay] at hinstant
  simp only [posixTm, hyear]
  omega

/-- What is asked of a result: a null pointer, or the broken-down time of a time that can be
converted. -/
def NullOrUtc (tt : Option Int64) (result : Option Tm) : Prop :=
  result = none ∨
    ∃ (time : Int64) (t : Nat) (tm : Tm), tt = some time ∧ time.toInt = t ∧ t ≤ 0x7FFFFFFF ∧
      result = some tm ∧ BrokenDown t tm

/-- A time the SDK can convert, and its date. -/
theorem convertTimeToDate_utc {t : Nat} (ht : t ≤ 0x7FFFFFFF) :
    ∃ d, convertTimeToDate (UInt32.ofInt t) 0 = some d ∧ Converted t d := by
  have htime : (UInt32.ofInt t).toNat = t := by
    simp only [UInt32.ofInt, UInt32.toNat_ofNat']
    omega
  have hvalid : isValidTime (UInt32.ofInt t) .unix 0 = true := by
    rw [isValidTime_unix, decide_eq_true_eq, UInt32.le_iff_toNat_le, htime]
    exact ht
  have hlocal : localTime (UInt32.ofInt t) 0 = t := by
    have h := localTime_eq hvalid
    omega
  obtain ⟨d, hd, hconverted⟩ := convertTimeToDate_eq hvalid (by omega)
  exact ⟨d, hd, hlocal ▸ hconverted⟩

/-- The fields of a date, next to those of its date and time. -/
theorem tmOf_eq (d : SleeptimerDate) :
    tmOf d = { posixTm d.dateTime with wday := d.dayOfWeek.toNat, yday := d.dayOfYear.toNat } := by
  have hmonth : (d.month.toNat : Int) = (d.month.toNat + 1 : Nat) - 1 := by omega
  have hyear : (d.year.toNat : Int) = (1900 + d.year.toNat : Nat) - 1900 := by omega
  simp only [tmOf, posixTm, SleeptimerDate.dateTime, ← hmonth, ← hyear]

/-- On a day that is shown as it is, only the day of the year is wrong, by one. -/
theorem mbedtlsPlatformGmtimeR_eq (date : SleeptimerDate) {tt : Int64} {t : Nat}
    (htt : tt.toInt = t) (ht : t ≤ 0x7FFFFFFF) (hshown : ShownAsIs (t / 86400)) :
    ∃ tm, BrokenDown t tm ∧
      mbedtlsPlatformGmtimeR date (some tt) = some { tm with yday := tm.yday + 1 } := by
  obtain ⟨d, hd, hconverted⟩ := convertTimeToDate_utc ht
  have hutc : IsUtc t d.dateTime :=
    (hconverted.utc t).mpr ((shown_iff (by omega) (by omega)).mpr ⟨rfl, hshown⟩)
  have hordinal := hutc.ordinal_eq
  have hweekday : d.dayOfWeek.toNat = d.dateTime.weekday := by
    rw [hconverted.dayOfWeek, DateTime.weekday, hordinal, unixEpoch]
    omega
  have hyearDay : d.dayOfYear.toNat = d.dateTime.dayOfYear + 1 := by
    have h := hconverted.dayOfYear hshown.1
    unfold DateTime.ordinal at hordinal
    omega
  refine ⟨posixTm d.dateTime, ⟨_, hutc, rfl⟩, ?_⟩
  simp only [mbedtlsPlatformGmtimeR, htt, hd, Option.getD_some, tmOf_eq, hweekday, hyearDay]
  rfl

/-- The structure copied from a converted date is not the broken-down time: if the date is
right, the day of the year is not. -/
theorem not_brokenDown_tmOf {t : Nat} {d : SleeptimerDate} (hconverted : Converted t d) :
    ¬BrokenDown t (tmOf d) := by
  rintro ⟨e, hutc, htm⟩
  simp only [tmOf_eq, posixTm, Tm.mk.injEq] at htm
  obtain ⟨hsec, hmin, hhour, hmday, hmon, hyear, -, hyday⟩ := htm
  obtain rfl : d.dateTime = e := by
    ext <;> omega
  obtain ⟨-, hshown⟩ := (shown_iff (by omega) (by omega)).mp ((hconverted.utc t).mp hutc)
  have hyearDay := hconverted.dayOfYear hshown.1
  have hordinal := hutc.ordinal_eq
  unfold DateTime.ordinal at hordinal
  omega

/-- The result is as asked for the null pointer only. -/
theorem gmtime_r_null_or_utc_iff (date : SleeptimerDate) (tt : Option Int64) :
    NullOrUtc tt (mbedtlsPlatformGmtimeR date tt) ↔ tt = none := by
  constructor
  · rintro (hnone | ⟨time, t, tm, rfl, htime, ht, hresult, hbroken⟩)
    · cases tt with
      | none => rfl
      | some tt => cases hnone
    · exfalso
      obtain ⟨d, hd, hconverted⟩ := convertTimeToDate_utc ht
      rw [mbedtlsPlatformGmtimeR, htime, hd, Option.getD_some, Option.some.injEq] at hresult
      exact not_brokenDown_tmOf hconverted (hresult ▸ hbroken)
  · rintro rfl
    exact .inl rfl

/-- The first second of 1970 is on day 1 of its year, which POSIX counts as day 0. -/
theorem gmtime_r_epoch_day_one :
    ¬∀ (date : SleeptimerDate) (tt : Option Int64),
      NullOrUtc tt (mbedtlsPlatformGmtimeR date tt) := by
  intro h
  have hresult : mbedtlsPlatformGmtimeR ⟨0, 0, 0, 0, 0, 0, 0, 0, 0⟩ (some 0) =
      some ⟨0, 0, 0, 1, 0, 70, 4, 1⟩ := by
    decide
  rcases h ⟨0, 0, 0, 0, 0, 0, 0, 0, 0⟩ (some 0) with
    hnone | ⟨time, t, tm, htt, htime, -, htm, hbroken⟩
  · rw [hresult] at hnone
    cases hnone
  · obtain rfl := Option.some.inj htt
    obtain rfl := Option.some.inj (hresult.symm.trans htm)
    have hzero : t = 0 := by
      have h0 : (0 : Int64).toInt = 0 := by decide
      omega
    have hinstant := hbroken.instant
    rw [hzero] at hinstant
    exact absurd hinstant (by decide)

end Uiso.Mbedtls
