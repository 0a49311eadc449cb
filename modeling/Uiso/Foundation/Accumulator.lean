/-
  Foundation/Accumulator.lean --- sums kept in a register, and their mean.

  A program that averages adds its samples in a register of some width and divides by
  their number.  The register holds the exact sum as long as every partial sum fits; the
  quotient, truncated toward zero, then lies between the least and the greatest sample.
-/
import Mathlib.Algebra.Order.BigOperators.Group.List
import Mathlib.Algebra.Order.Ring.Int

set_option autoImplicit false

namespace Uiso.Foundation

/-! ## The register -/

/-- A register whose addition is exact within a range holds the exact sum, if every
partial sum is in the range. -/
theorem foldl_exact {σ α : Type} (value : σ → Int) (add : σ → α → σ) (sample : α → Int)
    (InRange : Int → Prop)
    (hadd : ∀ s a, InRange (value s + sample a) → value (add s a) = value s + sample a)
    (l : List α) (s : σ)
    (hrange : ∀ k, k ≤ l.length → InRange (value s + ((l.take k).map sample).sum)) :
    value (l.foldl add s) = value s + (l.map sample).sum := by
  induction l generalizing s with
  | nil => simp
  | cons a rest ih =>
      have hfirst : value (add s a) = value s + sample a := by
        have := hrange 1 (by simp)
        exact hadd s a (by simpa using this)
      have hrest : ∀ k, k ≤ rest.length →
          InRange (value (add s a) + ((rest.take k).map sample).sum) := by
        intro k hk
        have := hrange (k + 1) (by simpa using hk)
        rw [hfirst]
        simpa [add_assoc] using this
      rw [List.foldl_cons, ih (add s a) hrest, hfirst, List.map_cons, List.sum_cons, add_assoc]

/-! ## Bounds of a sum and of its mean -/

/-- The sum of samples between two bounds. -/
theorem sum_between {l : List Int} {lo hi : Int} (h : ∀ v ∈ l, lo ≤ v ∧ v ≤ hi) :
    (l.length : Int) * lo ≤ l.sum ∧ l.sum ≤ (l.length : Int) * hi := by
  have hlo := List.card_nsmul_le_sum l lo fun v hv => (h v hv).1
  have hhi := List.sum_le_card_nsmul l hi fun v hv => (h v hv).2
  exact ⟨by simpa using hlo, by simpa using hhi⟩

/-- Truncation toward zero does not leave the bounds, whatever their signs. -/
theorem tdiv_between {sum n lo hi : Int} (hn : 0 < n) (hlo : n * lo ≤ sum)
    (hhi : sum ≤ n * hi) : lo ≤ sum.tdiv n ∧ sum.tdiv n ≤ hi := by
  have hl : (n * lo).tdiv n = lo := Int.mul_tdiv_cancel_left lo (Int.ne_of_gt hn)
  have hh : (n * hi).tdiv n = hi := Int.mul_tdiv_cancel_left hi (Int.ne_of_gt hn)
  constructor
  · calc lo = (n * lo).tdiv n := hl.symm
      _ ≤ sum.tdiv n := Int.tdiv_le_tdiv hn hlo
  · calc sum.tdiv n ≤ (n * hi).tdiv n := Int.tdiv_le_tdiv hn hhi
      _ = hi := hh

/-- The truncated mean lies between the least and the greatest sample. -/
theorem mean_between {l : List Int} (hl : l ≠ []) :
    ∃ lo hi, l.min? = some lo ∧ l.max? = some hi ∧
      lo ≤ l.sum.tdiv l.length ∧ l.sum.tdiv l.length ≤ hi := by
  obtain ⟨lo, hlo⟩ := Option.isSome_iff_exists.mp (List.isSome_min?_of_ne_nil hl)
  obtain ⟨hi, hhi⟩ := Option.isSome_iff_exists.mp (List.isSome_max?_of_ne_nil hl)
  have hbounds : ∀ v ∈ l, lo ≤ v ∧ v ≤ hi := fun v hv =>
    ⟨(List.min?_eq_some_iff.mp hlo).2 v hv, (List.max?_eq_some_iff.mp hhi).2 v hv⟩
  have hpos : (0 : Int) < l.length := by
    exact_mod_cast List.length_pos_of_ne_nil hl
  obtain ⟨hsumlo, hsumhi⟩ := sum_between hbounds
  exact ⟨lo, hi, hlo, hhi, tdiv_between hpos hsumlo hsumhi⟩

end Uiso.Foundation
