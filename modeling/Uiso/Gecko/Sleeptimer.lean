/-
  Gecko/Sleeptimer.lean --- the wall clock of the bundled Gecko SDK
  (`sl_sleeptimer.c`): which time stamps are valid and how Unix and NTP seconds
  are converted into each other.

  Both conversions are additions in 32 bits followed by a range check, and the two
  checks differ.  `convert_ntp_time_to_unix` tests the difference, so it accepts
  NTP times of the era that begins in 2036; `convert_unix_time_to_ntp` tests the
  sum against the offset, so it rejects every time that falls into that era.
-/
import Mathlib.Algebra.Ring.Int.Defs
import Mathlib.Algebra.Ring.Nat

set_option autoImplicit false

namespace Uiso.Gecko

/-! ## Time stamps -/

/-- `sl_sleeptimer_time_format_t` -/
inductive TimeFormat where
  | unix
  | ntp
  | zigbeeCluster
  deriving DecidableEq, Repr

/-- `TIME_NTP_EPOCH_OFFSET_SEC`: 70 years and 17 leap days. -/
def timeNtpEpochOffsetSec : UInt32 := (70 * 365 + 17) * 86400

/-- `TIME_ZIGBEE_EPOCH_OFFSET_SEC`: 30 years and 7 leap days. -/
def timeZigbeeEpochOffsetSec : UInt32 := (30 * 365 + 7) * 86400

/-- `TIME_UNIX_TIMESTAMP_MAX` -/
def timeUnixTimestampMax : UInt32 := 0x7FFFFFFF

/-- `is_valid_time`: no overflow when the time zone is added, and the range of the
format. -/
def isValidTime (time : UInt32) (format : TimeFormat) (timeZone : Int) : Bool :=
  let noOverflow :=
    (decide (timeZone < 0) && decide (timeZone.natAbs < time.toNat)) ||
      (decide (0 ≤ timeZone) && decide ((time.toNat : Int) ≤ 0xFFFFFFFF - timeZone))
  match format with
  | .unix => noOverflow && decide (time ≤ timeUnixTimestampMax)
  | .ntp => noOverflow && decide (timeNtpEpochOffsetSec ≤ time)
  | .zigbeeCluster =>
      noOverflow && decide (time ≤ timeUnixTimestampMax - timeZigbeeEpochOffsetSec)

/-- `sl_sleeptimer_convert_unix_time_to_ntp`; `none` is
`SL_STATUS_INVALID_PARAMETER`. -/
def convertUnixTimeToNtp (time : UInt32) : Option UInt32 :=
  let ntpTime := time + timeNtpEpochOffsetSec
  if isValidTime ntpTime .ntp 0 then some ntpTime else none

/-- `sl_sleeptimer_convert_ntp_time_to_unix`; `none` is
`SL_STATUS_INVALID_PARAMETER`. -/
def convertNtpTimeToUnix (ntpTime : UInt32) : Option UInt32 :=
  let time := ntpTime - timeNtpEpochOffsetSec
  if isValidTime time .unix 0 then some time else none

/-! ## Their ranges -/

theorem timeNtpEpochOffsetSec_eq : timeNtpEpochOffsetSec = 2208988800 := by decide

theorem isValidTime_unix (time : UInt32) :
    isValidTime time .unix 0 = decide (time ≤ timeUnixTimestampMax) := by
  have hmax := time.toNat_lt
  have hfits : (time.toNat : Int) ≤ 0xFFFFFFFF := by omega
  simp [isValidTime, hfits]

theorem isValidTime_ntp (time : UInt32) :
    isValidTime time .ntp 0 = decide (timeNtpEpochOffsetSec ≤ time) := by
  have hmax := time.toNat_lt
  have hfits : (time.toNat : Int) ≤ 0xFFFFFFFF := by omega
  simp [isValidTime, hfits]

/-- The first Unix second of the NTP era that begins in 2036. -/
def ntpEraChange : UInt32 := 2085978496

/-- A Unix time of the RTC's range converts precisely if it lies before the era
change. -/
theorem convertUnixTimeToNtp_eq {time : UInt32} (h : time ≤ timeUnixTimestampMax) :
    convertUnixTimeToNtp time =
      if time < ntpEraChange then some (time + timeNtpEpochOffsetSec) else none := by
  have hrange : time.toNat ≤ 0x7FFFFFFF := UInt32.le_iff_toNat_le.mp h
  have hvalid : timeNtpEpochOffsetSec ≤ time + timeNtpEpochOffsetSec ↔ time < ntpEraChange := by
    rw [UInt32.le_iff_toNat_le, UInt32.lt_iff_toNat_lt, UInt32.toNat_add,
      timeNtpEpochOffsetSec_eq]
    simp only [ntpEraChange, UInt32.reduceToNat]
    omega
  simp only [convertUnixTimeToNtp, isValidTime_ntp, decide_eq_true_eq, hvalid]

/-- An NTP time converts precisely if the difference fits into 31 bits. -/
theorem convertNtpTimeToUnix_eq (ntpTime : UInt32) :
    convertNtpTimeToUnix ntpTime =
      if ntpTime - timeNtpEpochOffsetSec ≤ timeUnixTimestampMax then
        some (ntpTime - timeNtpEpochOffsetSec)
      else none := by
  simp only [convertNtpTimeToUnix, isValidTime_unix, decide_eq_true_eq]

end Uiso.Gecko
