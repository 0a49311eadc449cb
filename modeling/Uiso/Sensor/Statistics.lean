/-
  Sensor/Statistics.lean --- the statistics of the accelerometer (src/statistics.c).

  `mean_and_variance` adds the samples of each axis in an `int32_t` and stores the
  quotient in an `int16_t`.  Its variance fields are declared and never written.
-/
import Uiso.Foundation.Accumulator

set_option autoImplicit false

namespace Uiso.Sensor

open Uiso.Foundation

/-! ## The structures -/

/-- The three axes. -/
inductive Axis where
  | x
  | y
  | z
  deriving DecidableEq, Repr

/-- A structure with one field for each axis. -/
structure Axes (α : Type) where
  x : α
  y : α
  z : α
  deriving DecidableEq, Repr

/-- The field of an axis. -/
def Axes.get {α : Type} (v : Axes α) : Axis → α
  | .x => v.x
  | .y => v.y
  | .z => v.z

/-- `struct bma2_sensor_data` -/
abbrev Bma2SensorData := Axes Int16

/-- `struct accelerometer_statistics_s` -/
structure AccelerometerStatistics where
  mean : Axes Int16
  variance : Axes Int32
  deriving DecidableEq, Repr

/-! ## The function -/

/-- The body of the loop, on `sum_x`, `sum_y` and `sum_z`. -/
def accumulate (sum : Axes Int32) (d : Bma2SensorData) : Axes Int32 where
  x := sum.x + d.x.toInt32
  y := sum.y + d.y.toInt32
  z := sum.z + d.z.toInt32

/-- The sums after the frames of a list. -/
def sums (frames : List Bma2SensorData) : Axes Int32 := frames.foldl accumulate ⟨0, 0, 0⟩

/-- `(sum / (int32_t)sensor_data_len)`, as it is stored in a field of `mean`. -/
def quotient (sum : Int32) (sensorDataLen : UInt16) : Int16 :=
  (sum / sensorDataLen.toUInt32.toInt32).toInt16

/-- `mean_and_variance`; `none` stands for a read behind the array and for a division by
zero. -/
def meanAndVariance (statistics : AccelerometerStatistics) (sensorData : List Bma2SensorData)
    (sensorDataLen : UInt16) : Option AccelerometerStatistics :=
  if sensorData.length < sensorDataLen.toNat then none
  else if sensorDataLen = 0 then none
  else
    let sum := sums (sensorData.take sensorDataLen.toNat)
    some { statistics with
      mean :=
        { x := quotient sum.x sensorDataLen
          y := quotient sum.y sensorDataLen
          z := quotient sum.z sensorDataLen } }

/-! ## Exact sums -/

/-- The samples of an axis, as integers. -/
def samples (a : Axis) (frames : List Bma2SensorData) : List Int :=
  frames.map fun d => (d.get a).toInt

/-- Every sample is an `int16_t`. -/
theorem samples_between (a : Axis) (frames : List Bma2SensorData) :
    ∀ v ∈ samples a frames, -2 ^ 15 ≤ v ∧ v ≤ 2 ^ 15 - 1 := by
  intro v hv
  obtain ⟨d, -, rfl⟩ := List.mem_map.mp hv
  have hlo := Int16.le_toInt (d.get a)
  have hhi := Int16.toInt_lt (d.get a)
  exact ⟨hlo, by omega⟩

/-- The values of an `int32_t`. -/
def InInt32 (v : Int) : Prop := -2 ^ 31 ≤ v ∧ v < 2 ^ 31

/-- No more than 65535 samples add up to a value of an `int32_t`. -/
theorem inInt32_sum (a : Axis) {frames : List Bma2SensorData} (h : frames.length < 2 ^ 16) :
    InInt32 (samples a frames).sum := by
  obtain ⟨hlo, hhi⟩ := sum_between (samples_between a frames)
  rw [show (samples a frames).length = frames.length from List.length_map ..] at hlo hhi
  unfold InInt32
  omega

theorem toInt_accumulate (a : Axis) (sum : Axes Int32) (d : Bma2SensorData)
    (h : InInt32 ((sum.get a).toInt + (d.get a).toInt)) :
    ((accumulate sum d).get a).toInt = (sum.get a).toInt + (d.get a).toInt := by
  have hadd : (accumulate sum d).get a = sum.get a + (d.get a).toInt32 := by cases a <;> rfl
  rw [hadd, Int32.toInt_add, Int16.toInt_toInt32]
  obtain ⟨hlo, hhi⟩ := h
  exact Int.bmod_eq_of_le (by omega) (by omega)

/-- The sums of up to 65535 frames are exact. -/
theorem toInt_sums (a : Axis) {frames : List Bma2SensorData} (h : frames.length < 2 ^ 16) :
    ((sums frames).get a).toInt = (samples a frames).sum := by
  have hstart : (((⟨0, 0, 0⟩ : Axes Int32)).get a).toInt = 0 := by cases a <;> rfl
  have hrange : ∀ k, k ≤ frames.length → InInt32
      ((((⟨0, 0, 0⟩ : Axes Int32)).get a).toInt +
        ((frames.take k).map fun d => (d.get a).toInt).sum) := by
    intro k _
    rw [hstart, zero_add]
    exact inInt32_sum a (by rw [List.length_take]; omega)
  have hexact := foldl_exact (fun s => (s.get a).toInt) accumulate (fun d => (d.get a).toInt)
    InInt32 (toInt_accumulate a) frames ⟨0, 0, 0⟩ hrange
  rw [hstart, zero_add] at hexact
  exact hexact

/-! ## The means -/

theorem toInt_sensorDataLen (len : UInt16) : len.toUInt32.toInt32.toInt = (len.toNat : Int) := by
  have hlt := len.toNat_lt
  have hval : len.toUInt32.toInt32.toInt = (len.toUInt32.toNat : Int).bmod (2 ^ 32) :=
    BitVec.toInt_eq_toNat_bmod _
  rw [hval, UInt16.toNat_toUInt32]
  exact Int.bmod_eq_of_le (by omega) (by omega)

/-- A quotient that is a value of an `int16_t` is stored as it is. -/
theorem toInt_quotient (sum : Int32) (len : UInt16)
    (h : -2 ^ 15 ≤ sum.toInt.tdiv len.toNat ∧ sum.toInt.tdiv len.toNat ≤ 2 ^ 15 - 1) :
    (quotient sum len).toInt = sum.toInt.tdiv len.toNat := by
  obtain ⟨hlo, hhi⟩ := h
  unfold quotient
  rw [Int32.toInt_toInt16, Int32.toInt_div, toInt_sensorDataLen]
  rw [Int.bmod_eq_of_le (n := sum.toInt.tdiv len.toNat) (m := 2 ^ 32) (by omega) (by omega)]
  exact Int.bmod_eq_of_le (by omega) (by omega)

/-- The mean of an axis is the exact sum over the number of frames, truncated toward
zero, and lies between the least and the greatest sample. -/
structure IsMean (mean : Int16) (values : List Int) : Prop where
  exact : mean.toInt = values.sum.tdiv values.length
  between : ∃ lo hi, values.min? = some lo ∧ values.max? = some hi ∧
    lo ≤ mean.toInt ∧ mean.toInt ≤ hi

theorem isMean_quotient (a : Axis) {frames : List Bma2SensorData} {len : UInt16}
    (hlen : frames.length = len.toNat) (hpos : 1 ≤ len.toNat) :
    IsMean (quotient ((sums frames).get a) len) (samples a frames) := by
  have hlt := len.toNat_lt
  have hcount : (samples a frames).length = len.toNat := by rw [← hlen]; exact List.length_map ..
  have hsum : ((sums frames).get a).toInt = (samples a frames).sum := toInt_sums a (by omega)
  obtain ⟨lo, hi, hmin, hmax, hlo, hhi⟩ :=
    mean_between (List.ne_nil_of_length_pos (l := samples a frames) (by omega))
  have hlo16 := (samples_between a frames lo (List.min?_mem hmin)).1
  have hhi16 := (samples_between a frames hi (List.max?_mem hmax)).2
  rw [hcount] at hlo hhi
  have hq : (quotient ((sums frames).get a) len).toInt =
      (samples a frames).sum.tdiv len.toNat := by
    rw [toInt_quotient, hsum]
    rw [hsum]
    exact ⟨hlo16.trans hlo, hhi.trans hhi16⟩
  exact ⟨by rw [hq, hcount], lo, hi, hmin, hmax, by rw [hq]; exact hlo, by rw [hq]; exact hhi⟩

/-- For every array of at least one frame, on each axis: the `int32_t` sum of every
prefix is the exact sum, and the stored mean is the exact mean of the samples. -/
theorem meanAndVariance_isMean (statistics : AccelerometerStatistics)
    (sensorData : List Bma2SensorData) (sensorDataLen : UInt16)
    (hlen : sensorData.length = sensorDataLen.toNat) (hpos : 1 ≤ sensorDataLen.toNat) :
    ∃ result, meanAndVariance statistics sensorData sensorDataLen = some result ∧
      result.variance = statistics.variance ∧
      ∀ a, (∀ k, k ≤ sensorDataLen.toNat →
          InInt32 (samples a (sensorData.take k)).sum ∧
          ((sums (sensorData.take k)).get a).toInt = (samples a (sensorData.take k)).sum) ∧
        IsMean (result.mean.get a) (samples a sensorData) := by
  have hlt := sensorDataLen.toNat_lt
  have hne : sensorDataLen ≠ 0 := by
    intro h0
    rw [h0] at hpos
    cases hpos
  have htake : sensorData.take sensorDataLen.toNat = sensorData :=
    List.take_of_length_le (Nat.le_of_eq hlen)
  have hrun : meanAndVariance statistics sensorData sensorDataLen = some
      { statistics with
        mean :=
          { x := quotient (sums sensorData).x sensorDataLen
            y := quotient (sums sensorData).y sensorDataLen
            z := quotient (sums sensorData).z sensorDataLen } } := by
    rw [meanAndVariance, if_neg (by omega), if_neg hne, htake]
  refine ⟨_, hrun, rfl, fun a => ⟨?_, ?_⟩⟩
  · intro k _
    have hk : (sensorData.take k).length < 2 ^ 16 := by rw [List.length_take]; omega
    exact ⟨inInt32_sum a hk, toInt_sums a hk⟩
  · have hmean := isMean_quotient a hlen hpos
    cases a <;> exact hmean

/-- Two frames whose mean is negative on one axis and at the ends of the range on the
others. -/
theorem meanAndVariance_isMean_pair :
    ∃ result, meanAndVariance ⟨⟨0, 0, 0⟩, ⟨0, 0, 0⟩⟩ [⟨-3, 32767, -32768⟩, ⟨-4, 32767, -32768⟩] 2 =
        some result ∧ result.mean = ⟨-3, 32767, -32768⟩ ∧ IsMean result.mean.x [-3, -4] := by
  obtain ⟨result, hr, -, hall⟩ := meanAndVariance_isMean ⟨⟨0, 0, 0⟩, ⟨0, 0, 0⟩⟩
    [⟨-3, 32767, -32768⟩, ⟨-4, 32767, -32768⟩] 2 rfl (by decide)
  refine ⟨result, hr, ?_, (hall .x).2⟩
  have hrun : meanAndVariance ⟨⟨0, 0, 0⟩, ⟨0, 0, 0⟩⟩
      [⟨-3, 32767, -32768⟩, ⟨-4, 32767, -32768⟩] 2 =
      some ⟨⟨-3, 32767, -32768⟩, ⟨0, 0, 0⟩⟩ := by decide
  obtain rfl := Option.some.inj (hrun.symm.trans hr)
  rfl

end Uiso.Sensor
