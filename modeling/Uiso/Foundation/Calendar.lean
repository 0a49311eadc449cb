/-
  Foundation/Calendar.lean --- the Gregorian calendar, and the loop programs find a
  month with.

      descend a t      : while (t >= a[i]) { t -= a[i]; i++; }
      ordinal          : the days from 1 January of the year 1 to a date
      IsUtc t d        : `d` is the date and time `t` seconds after the Unix epoch

  `IsUtc` goes from a date to its number, where there is nothing to compute but sums;
  programs go the other way.  Months and days are counted from 1.
-/
import Mathlib.Algebra.Ring.Nat
import Mathlib.Data.List.Basic

set_option autoImplicit false

namespace Uiso.Foundation

/-! ## Segments of a line -/

/-- `while (t >= a[i]) { t -= a[i]; i++; }`, from `i = 0`: the index and what is left of
`t`; `none` when the loop runs off the array. -/
def descend : List Nat → Nat → Option (Nat × Nat)
  | [], _ => none
  | len :: rest, t =>
      if len ≤ t then (descend rest (t - len)).map fun p => (p.1 + 1, p.2) else some (0, t)

theorem descend_cons_of_le {len t : Nat} (rest : List Nat) (h : len ≤ t) :
    descend (len :: rest) t = (descend rest (t - len)).map fun p => (p.1 + 1, p.2) :=
  if_pos h

theorem descend_cons_of_lt {len t : Nat} (rest : List Nat) (h : t < len) :
    descend (len :: rest) t = some (0, t) :=
  if_neg (Nat.not_le.mpr h)

/-- The loop ends in the segment `t` lies in. -/
theorem descend_eq_some {lens : List Nat} {t i r : Nat} (h : descend lens t = some (i, r)) :
    (lens.take i).sum + r = t ∧ ∃ len, lens[i]? = some len ∧ r < len := by
  induction lens generalizing t i with
  | nil => cases h
  | cons len rest ih =>
      by_cases hle : len ≤ t
      · rw [descend_cons_of_le rest hle, Option.map_eq_some_iff] at h
        obtain ⟨⟨j, r'⟩, hrest, hpair⟩ := h
        obtain ⟨rfl, rfl⟩ : j + 1 = i ∧ r' = r := Prod.mk.inj hpair
        obtain ⟨hsum, hlen⟩ := ih hrest
        refine ⟨?_, hlen⟩
        rw [List.take_succ_cons, List.sum_cons]
        omega
      · rw [descend_cons_of_lt rest (Nat.not_le.mp hle)] at h
        obtain ⟨rfl, rfl⟩ := Prod.mk.inj (Option.some.inj h)
        exact ⟨by simp, len, rfl, Nat.not_le.mp hle⟩

/-- It ends where the array is long enough. -/
theorem exists_descend {lens : List Nat} {t : Nat} (h : t < lens.sum) :
    ∃ i r, descend lens t = some (i, r) := by
  induction lens generalizing t with
  | nil => cases h
  | cons len rest ih =>
      by_cases hle : len ≤ t
      · rw [List.sum_cons] at h
        obtain ⟨i, r, hrest⟩ := ih (t := t - len) (by omega)
        exact ⟨i + 1, r, by rw [descend_cons_of_le rest hle, hrest]; rfl⟩
      · exact ⟨0, t, descend_cons_of_lt rest (Nat.not_le.mp hle)⟩

/-- What lies behind an array that is long enough is not read. -/
theorem descend_append {lens : List Nat} {t : Nat} (more : List Nat) (h : t < lens.sum) :
    descend (lens ++ more) t = descend lens t := by
  induction lens generalizing t with
  | nil => cases h
  | cons len rest ih =>
      rw [List.cons_append]
      by_cases hle : len ≤ t
      · rw [List.sum_cons] at h
        rw [descend_cons_of_le _ hle, descend_cons_of_le _ hle, ih (t := t - len) (by omega)]
      · have hlt : t < len := Nat.not_le.mp hle
        rw [descend_cons_of_lt _ hlt, descend_cons_of_lt _ hlt]

/-- A later point lies in a later segment, or later in the same one. -/
theorem descend_mono {lens : List Nat} {t t' i i' r r' : Nat} (hle : t ≤ t')
    (h : descend lens t = some (i, r)) (h' : descend lens t' = some (i', r')) :
    i < i' ∨ i = i' ∧ r ≤ r' := by
  induction lens generalizing t t' i i' with
  | nil => cases h
  | cons len rest ih =>
      by_cases hlen' : len ≤ t'
      · rw [descend_cons_of_le rest hlen', Option.map_eq_some_iff] at h'
        obtain ⟨⟨j', s'⟩, hrest', hpair'⟩ := h'
        obtain ⟨rfl, rfl⟩ := Prod.mk.inj hpair'
        by_cases hlen : len ≤ t
        · rw [descend_cons_of_le rest hlen, Option.map_eq_some_iff] at h
          obtain ⟨⟨j, s⟩, hrest, hpair⟩ := h
          obtain ⟨rfl, rfl⟩ := Prod.mk.inj hpair
          have hnext := ih (by omega) hrest hrest'
          omega
        · rw [descend_cons_of_lt rest (Nat.not_le.mp hlen)] at h
          obtain ⟨rfl, rfl⟩ := Prod.mk.inj (Option.some.inj h)
          exact .inl (Nat.succ_pos j')
      · have hlen : t < len := by omega
        rw [descend_cons_of_lt rest hlen] at h
        rw [descend_cons_of_lt rest (Nat.not_le.mp hlen')] at h'
        obtain ⟨rfl, rfl⟩ := Prod.mk.inj (Option.some.inj h)
        obtain ⟨rfl, rfl⟩ := Prod.mk.inj (Option.some.inj h')
        exact .inr ⟨rfl, hle⟩

namespace Calendar

/-! ## Dates -/

/-- Has the year 366 days? -/
def isLeap (year : Nat) : Bool := year % 4 == 0 && (year % 100 != 0 || year % 400 == 0)

/-- The days of the months. -/
def monthLengths (leap : Bool) : List Nat :=
  [31, if leap then 29 else 28, 31, 30, 31, 30, 31, 31, 30, 31, 30, 31]

/-- The days before a year, from the year 1 on. -/
def daysBeforeYear (year : Nat) : Nat :=
  365 * (year - 1) + (year - 1) / 4 - (year - 1) / 100 + (year - 1) / 400

/-- A date and a time of day. -/
@[ext]
structure DateTime where
  year : Nat
  month : Nat
  day : Nat
  hour : Nat
  minute : Nat
  second : Nat
  deriving DecidableEq, Repr

namespace DateTime

/-- The date is in the calendar, and the time in the day. -/
structure Valid (d : DateTime) : Prop where
  month : 1 ≤ d.month
  day : 1 ≤ d.day
  length : ∃ len, (monthLengths (isLeap d.year))[d.month - 1]? = some len ∧ d.day ≤ len
  hour : d.hour < 24
  minute : d.minute < 60
  second : d.second < 60

/-- The days before the date in its year. -/
def dayOfYear (d : DateTime) : Nat :=
  ((monthLengths (isLeap d.year)).take (d.month - 1)).sum + (d.day - 1)

/-- The days before the date, from the year 1 on. -/
def ordinal (d : DateTime) : Nat := daysBeforeYear d.year + d.dayOfYear

/-- The day of the week, 0 for Sunday: the calendar starts with a Monday. -/
def weekday (d : DateTime) : Nat := (d.ordinal + 1) % 7

def secondOfDay (d : DateTime) : Nat := 3600 * d.hour + 60 * d.minute + d.second

end DateTime

/-- The days before 1 January 1970. -/
def unixEpoch : Nat := 719162

/-- The date and time `t` seconds after the Unix epoch. -/
structure IsUtc (t : Nat) (d : DateTime) : Prop where
  valid : d.Valid
  instant : 86400 * d.ordinal + d.secondOfDay = 86400 * unixEpoch + t

/-- The day of an instant. -/
theorem IsUtc.ordinal_eq {t : Nat} {d : DateTime} (h : IsUtc t d) :
    d.ordinal = unixEpoch + t / 86400 := by
  have hinstant := h.instant
  have hhour := h.valid.hour
  have hminute := h.valid.minute
  have hsecond := h.valid.second
  unfold DateTime.secondOfDay at hinstant
  omega

/-! ## From 1970 to 2099 -/

theorem daysBeforeYear_unix {n : Nat} (h : n ≤ 130) :
    daysBeforeYear (1970 + n) = unixEpoch + 365 * n + (n + 1) / 4 := by
  unfold daysBeforeYear unixEpoch
  omega

theorem isLeap_unix {n : Nat} (h : n < 130) : isLeap (1970 + n) = decide (n % 4 = 2) := by
  have hiff : (1970 + n) % 4 = 0 ∧ ((1970 + n) % 100 ≠ 0 ∨ (1970 + n) % 400 = 0) ↔ n % 4 = 2 := by
    omega
  rw [Bool.eq_iff_iff, decide_eq_true_eq, ← hiff]
  simp [isLeap]

/-- The days of a year. -/
theorem sum_monthLengths (leap : Bool) :
    (monthLengths leap).sum = if leap then 366 else 365 := by
  cases leap <;> rfl

end Calendar

end Uiso.Foundation
