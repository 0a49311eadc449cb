/-
  Foundation/Chain.lean --- singly linked lists in a heap of nodes.

      Heap            : for every address, the `next` pointer of the node there, if
                        one is allocated
      Segment h p l q : from the pointer `p`, the nodes `l` lead to the pointer `q`
      lastNode        : while (n->next != NULL) n = n->next
      findParent      : while (p != NULL && p->next != target) p = p->next

  The two loops run on a bound and fail when they reach an address without a node.
  On a segment they do neither: the bound only has to exceed its length.  A segment
  does not see writes to addresses outside of it (`Segment.frame`).
-/
import Mathlib.Data.List.Nodup

set_option autoImplicit false

namespace Uiso.Foundation

/-- The `next` pointers of the allocated nodes. -/
def Heap : Type := Nat → Option (Option Nat)

namespace Heap

/-- No node is allocated. -/
def empty : Heap := fun _ => none

/-- A node with the given `next` pointer at an address. -/
def store (h : Heap) (a : Nat) (next : Option Nat) : Heap :=
  fun b => if b = a then some next else h b

/-- No node at an address. -/
def free (h : Heap) (a : Nat) : Heap := fun b => if b = a then none else h b

/-- `n->next = next`; there must be a node. -/
def setNext (h : Heap) (a : Nat) (next : Option Nat) : Option Heap :=
  match h a with
  | none => none
  | some _ => some (h.store a next)

@[simp] theorem store_same (h : Heap) (a : Nat) (next : Option Nat) :
    h.store a next a = some next := if_pos rfl

theorem store_other (h : Heap) {a b : Nat} (next : Option Nat) (hne : b ≠ a) :
    h.store a next b = h b := if_neg hne

@[simp] theorem free_same (h : Heap) (a : Nat) : h.free a a = none := if_pos rfl

theorem free_other (h : Heap) {a b : Nat} (hne : b ≠ a) : h.free a b = h b := if_neg hne

theorem store_ne_none_iff (h : Heap) (a b : Nat) (next : Option Nat) :
    h.store a next b ≠ none ↔ b = a ∨ h b ≠ none := by
  unfold store
  split <;> simp [*]

theorem free_ne_none_iff (h : Heap) (a b : Nat) : h.free a b ≠ none ↔ b ≠ a ∧ h b ≠ none := by
  unfold free
  split <;> simp [*]

theorem setNext_of_some {h : Heap} {a : Nat} {next old : Option Nat} (hnode : h a = some old) :
    h.setNext a next = some (h.store a next) := by
  simp only [setNext, hnode]

/-- A node that is allocated at a free address and freed again leaves no trace. -/
theorem free_store_of_none {h : Heap} {a : Nat} {next : Option Nat} (hnode : h a = none) :
    (h.store a next).free a = h := by
  funext b
  by_cases hb : b = a
  · rw [hb, free_same, hnode]
  · rw [free_other _ hb, store_other _ _ hb]

/-! ## Segments -/

/-- From the pointer `p`, the nodes `l` lead to the pointer `q`. -/
def Segment (h : Heap) : Option Nat → List Nat → Option Nat → Prop
  | p, [], q => p = q
  | p, a :: l, q => p = some a ∧ ∃ next, h a = some next ∧ Segment h next l q

variable {h h' : Heap} {p q : Option Nat} {l l₁ l₂ : List Nat} {a z target : Nat}

theorem segment_append :
    Segment h p (l₁ ++ l₂) q ↔ ∃ r, Segment h p l₁ r ∧ Segment h r l₂ q := by
  induction l₁ generalizing p with
  | nil => simp [Segment]
  | cons a l₁ ih =>
      simp only [List.cons_append, Segment, ih]
      constructor
      · rintro ⟨hp, next, hnext, r, h₁, h₂⟩
        exact ⟨r, ⟨hp, next, hnext, h₁⟩, h₂⟩
      · rintro ⟨r, ⟨hp, next, hnext, h₁⟩, h₂⟩
        exact ⟨hp, next, hnext, r, h₁, h₂⟩

theorem segment_concat :
    Segment h p (l ++ [z]) q ↔ Segment h p l (some z) ∧ h z = some q := by
  rw [segment_append]
  constructor
  · rintro ⟨r, hl, rfl, next, hnext, rfl⟩
    exact ⟨hl, hnext⟩
  · rintro ⟨hl, hz⟩
    exact ⟨some z, hl, rfl, q, hz, rfl⟩

/-- A segment depends on its own nodes only. -/
theorem Segment.frame (hseg : Segment h p l q) (hsame : ∀ a ∈ l, h' a = h a) :
    Segment h' p l q := by
  induction l generalizing p with
  | nil => exact hseg
  | cons a l ih =>
      obtain ⟨hp, next, hnext, hrest⟩ := hseg
      refine ⟨hp, next, ?_, ih hrest fun b hb => hsame b (List.mem_cons_of_mem a hb)⟩
      rw [hsame a List.mem_cons_self, hnext]

theorem Segment.frame_store (hseg : Segment h p l q) {next : Option Nat} (ha : a ∉ l) :
    Segment (h.store a next) p l q :=
  hseg.frame fun _ hb => store_other h next fun hba => ha (hba ▸ hb)

theorem Segment.frame_free (hseg : Segment h p l q) (ha : a ∉ l) :
    Segment (h.free a) p l q :=
  hseg.frame fun _ hb => free_other h fun hba => ha (hba ▸ hb)

/-! ## The loops -/

/-- `while (n->next != NULL) n = n->next` -/
def lastNode (h : Heap) : Nat → Nat → Option Nat
  | 0, _ => none
  | fuel + 1, a =>
      match h a with
      | none => none
      | some none => some a
      | some (some b) => lastNode h fuel b

theorem lastNode_eq (hseg : Segment h (some a) (l ++ [z]) none) {fuel : Nat}
    (hfuel : l.length < fuel) : h.lastNode fuel a = some z := by
  induction l generalizing a fuel with
  | nil =>
      obtain ⟨hp, next, hnext, rfl⟩ := hseg
      obtain rfl := Option.some.inj hp
      obtain ⟨fuel, rfl⟩ := Nat.exists_eq_succ_of_ne_zero (Nat.ne_of_gt hfuel)
      simp only [lastNode, hnext]
  | cons b l ih =>
      obtain ⟨hp, next, hnext, hrest⟩ := hseg
      obtain rfl := Option.some.inj hp
      obtain ⟨fuel, rfl⟩ := Nat.exists_eq_succ_of_ne_zero
        (Nat.ne_of_gt (Nat.lt_of_le_of_lt (Nat.zero_le _) hfuel))
      cases next with
      | none =>
          cases l with
          | nil => cases hrest.1
          | cons c l => cases hrest.1
      | some c =>
          simp only [lastNode, hnext]
          exact ih hrest (Nat.lt_of_succ_lt_succ hfuel)

/-- `while (p != NULL && p->next != target) p = p->next` -/
def findParent (h : Heap) (target : Nat) : Nat → Option Nat → Option (Option Nat)
  | _, none => some none
  | 0, some _ => none
  | fuel + 1, some a =>
      match h a with
      | none => none
      | some next => if next = some target then some (some a) else findParent h target fuel next

theorem findParent_eq (hseg : Segment h p (l ++ [z]) (some target))
    (htarget : target ∉ l ++ [z]) {fuel : Nat} (hfuel : l.length < fuel) :
    h.findParent target fuel p = some (some z) := by
  induction l generalizing p fuel with
  | nil =>
      obtain ⟨rfl, next, hnext, rfl⟩ := hseg
      obtain ⟨fuel, rfl⟩ := Nat.exists_eq_succ_of_ne_zero (Nat.ne_of_gt hfuel)
      simp only [findParent, hnext, if_true]
  | cons b l ih =>
      obtain ⟨rfl, next, hnext, hrest⟩ := hseg
      obtain ⟨fuel, rfl⟩ := Nat.exists_eq_succ_of_ne_zero
        (Nat.ne_of_gt (Nat.lt_of_le_of_lt (Nat.zero_le _) hfuel))
      have hmem : target ∉ l ++ [z] := fun hm => htarget (List.mem_cons_of_mem b hm)
      -- The next node is in the segment, so it is not the target.
      have hne : next ≠ some target := by
        rintro rfl
        cases l with
        | nil => exact hmem (by rw [Option.some.inj hrest.1]; exact List.mem_cons_self)
        | cons c l => exact hmem (by rw [Option.some.inj hrest.1]; exact List.mem_cons_self)
      simp only [findParent, hnext, hne, if_false]
      exact ih hrest hmem (Nat.lt_of_succ_lt_succ hfuel)

/-! ## Linking and unlinking -/

/-- A node with no successor is appended to a chain by the `next` pointer of its last
node. -/
theorem segment_link (hseg : Segment h p (l ++ [z]) none) (hnodup : (l ++ [z]).Nodup)
    (ha : h a = some none) (hmem : a ∉ l ++ [z]) :
    Segment (h.store z (some a)) p (l ++ [z] ++ [a]) none := by
  obtain ⟨hl, _⟩ := segment_concat.mp hseg
  have hz : z ∉ l := fun hz =>
    (List.nodup_append.mp hnodup).2.2 z hz z List.mem_cons_self rfl
  have hne : a ≠ z := fun haz => hmem (haz ▸ List.mem_append_right l List.mem_cons_self)
  refine segment_concat.mpr ⟨segment_concat.mpr ⟨hl.frame_store hz, store_same h z (some a)⟩, ?_⟩
  rw [store_other h (some a) hne, ha]

/-- A node is taken out of a chain by the `next` pointer of its predecessor. -/
theorem segment_unlink {rest : List Nat} {next : Option Nat}
    (hseg : Segment h p (l ++ [z] ++ target :: rest) none)
    (hnodup : (l ++ [z] ++ target :: rest).Nodup) (htarget : h target = some next) :
    Segment ((h.store z next).free target) p (l ++ [z] ++ rest) none := by
  obtain ⟨hfront, hback, hdisjoint⟩ := List.nodup_append.mp hnodup
  obtain ⟨r, hl, rfl, next', hnext, hrest⟩ := segment_append.mp hseg
  obtain rfl : next = next' := Option.some.inj (htarget.symm.trans hnext)
  obtain ⟨hl, _⟩ := segment_concat.mp hl
  have hz : z ∉ l := fun hz =>
    (List.nodup_append.mp hfront).2.2 z hz z List.mem_cons_self rfl
  have hzl : z ∈ l ++ [z] := List.mem_append_right l List.mem_cons_self
  have hztarget : z ≠ target := hdisjoint z hzl target List.mem_cons_self
  have hzrest : z ∉ rest := fun hm => hdisjoint z hzl z (List.mem_cons_of_mem target hm) rfl
  have htl : target ∉ l := fun hm =>
    hdisjoint target (List.mem_append_left [z] hm) target List.mem_cons_self rfl
  have htrest : target ∉ rest := (List.nodup_cons.mp hback).1
  refine segment_append.mpr ⟨next, segment_concat.mpr ⟨?_, ?_⟩, ?_⟩
  · exact (hl.frame_store hz).frame_free htl
  · rw [free_other _ hztarget, store_same]
  · exact (hrest.frame_store hzrest).frame_free htrest

end Heap

end Uiso.Foundation
