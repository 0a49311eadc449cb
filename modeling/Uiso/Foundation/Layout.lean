/-
  Foundation/Layout.lean --- parts of a list, and items laid out one behind the other.

  `Span whole pos part` says that `part` stands in `whole` at a position.

  `layout len base xs` pairs every item with the place where it starts.  The items cover
  the places from `base` on without gaps (`layout_locate`) and without overlap
  (`layout_unique`).
-/
import Mathlib.Logic.Basic

set_option autoImplicit false

namespace Uiso.Foundation

/-! ## Spans -/

/-- From `pos` on, `whole` reads `part`. -/
def Span {α : Type} (whole : List α) (pos : Nat) (part : List α) : Prop :=
  part <+: whole.drop pos

section Spans

variable {α : Type} {whole : List α} {pos : Nat}

theorem span_append {a b : List α} :
    Span whole pos (a ++ b) ↔ Span whole pos a ∧ Span whole (pos + a.length) b := by
  constructor
  · rintro ⟨rest, hrest⟩
    refine ⟨⟨b ++ rest, by rw [← hrest, List.append_assoc]⟩, rest, ?_⟩
    rw [← List.drop_drop, ← hrest, List.append_assoc, List.drop_left]
  · rintro ⟨⟨rest, hrest⟩, post, hpost⟩
    refine ⟨post, ?_⟩
    rw [← List.drop_drop, ← hrest, List.drop_left] at hpost
    rw [List.append_assoc, hpost, hrest]

theorem span_cons {a : α} {b : List α} :
    Span whole pos (a :: b) ↔ Span whole pos [a] ∧ Span whole (pos + 1) b :=
  span_append (a := [a])

theorem Span.getElem? {part : List α} (h : Span whole pos part) {j : Nat} {x : α}
    (hj : part[j]? = some x) : whole[pos + j]? = some x := by
  obtain ⟨rest, hrest⟩ := h
  have hlt := (List.getElem?_eq_some_iff.mp hj).1
  rw [← List.getElem?_drop, ← hrest, List.getElem?_append_left hlt, hj]

end Spans

/-! ## Layouts -/

section Layout

variable {α : Type} (len : α → Nat)

/-- The items with their places, the first one at `base`. -/
def layout : Nat → List α → List (Nat × α)
  | _, [] => []
  | base, x :: xs => (base, x) :: layout (base + len x) xs

/-- The number of places the items take. -/
def extent : List α → Nat
  | [] => 0
  | x :: xs => len x + extent xs

variable {len}

theorem mem_layout {x : α} : ∀ (xs : List α) (base : Nat),
    x ∈ xs ↔ ∃ i, (i, x) ∈ layout len base xs := by
  intro xs
  induction xs with
  | nil => simp [layout]
  | cons y ys ih =>
      intro base
      rw [List.mem_cons, ih (base + len y)]
      constructor
      · rintro (rfl | ⟨i, hi⟩)
        · exact ⟨base, List.mem_cons_self⟩
        · exact ⟨i, List.mem_cons_of_mem _ hi⟩
      · rintro ⟨i, hi⟩
        rcases List.mem_cons.mp hi with heq | hi
        · cases heq
          exact .inl rfl
        · exact .inr ⟨i, hi⟩

/-- Every item lies in the range of the whole. -/
theorem layout_range {i : Nat} {x : α} : ∀ {xs : List α} {base : Nat},
    (i, x) ∈ layout len base xs → base ≤ i ∧ i + len x ≤ base + extent len xs := by
  intro xs
  induction xs with
  | nil => simp [layout]
  | cons y ys ih =>
      intro base h
      rw [extent]
      rcases List.mem_cons.mp h with heq | h
      · cases heq
        omega
      · have hrest := ih h
        omega

/-- Every place in the range is that of an item. -/
theorem layout_locate {j : Nat} : ∀ (xs : List α) {base : Nat}, base ≤ j →
    j < base + extent len xs → ∃ i x, (i, x) ∈ layout len base xs ∧ i ≤ j ∧ j < i + len x := by
  intro xs
  induction xs with
  | nil =>
      intro base hlow hhigh
      rw [extent] at hhigh
      omega
  | cons y ys ih =>
      intro base hlow hhigh
      rw [extent] at hhigh
      rcases Nat.lt_or_ge j (base + len y) with hlt | hge
      · exact ⟨base, y, List.mem_cons_self, hlow, hlt⟩
      · obtain ⟨i, x, hmem, hrange⟩ := ih hge (by omega)
        exact ⟨i, x, List.mem_cons_of_mem _ hmem, hrange⟩

/-- Two items do not overlap. -/
theorem layout_unique (hpos : ∀ x, 0 < len x) {i j : Nat} {x y : α} :
    ∀ {xs : List α} {base : Nat}, (i, x) ∈ layout len base xs → (j, y) ∈ layout len base xs →
      i ≤ j → j < i + len x → (i, x) = (j, y) := by
  intro xs
  induction xs with
  | nil => simp [layout]
  | cons z zs ih =>
      intro base hx hy hlow hhigh
      rcases List.mem_cons.mp hx with heq | hx
      · rcases List.mem_cons.mp hy with heq' | hy
        · rw [heq, heq']
        · have hrest := (layout_range hy).1
          cases heq
          omega
      · rcases List.mem_cons.mp hy with heq' | hy
        · have hrest := (layout_range hx).1
          have hz := hpos z
          cases heq'
          omega
        · exact ih hx hy hlow hhigh

/-- Two items that share a place are the same. -/
theorem layout_same (hpos : ∀ x, 0 < len x) {i j k : Nat} {x y : α} {xs : List α} {base : Nat}
    (hx : (i, x) ∈ layout len base xs) (hy : (j, y) ∈ layout len base xs) (hik : i ≤ k)
    (hki : k < i + len x) (hjk : j ≤ k) (hkj : k < j + len y) : (i, x) = (j, y) := by
  rcases Nat.le_total i j with hij | hji
  · exact layout_unique hpos hx hy hij (by omega)
  · exact (layout_unique hpos hy hx hji (by omega)).symm

end Layout

end Uiso.Foundation
