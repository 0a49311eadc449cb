/-
  Foundation/KeyedList.lean --- linked lists of nodes that carry an id.

  The functions of the list library are parameters, with the laws that are used of them: a
  node is found and removed by its id, and where a node is added depends on its id only.

      find k l    : the first node with id `k`
      remove k l  : the list without that node
      add a l     : the list with `a` put somewhere
      put k a l   : the first node with id `k` overwritten by `a`

  What is needed of an `add` is that it can be undone and overwritten, which holds when its id
  is new.
-/
import Mathlib.Data.List.Basic
import Mathlib.Data.List.Perm.Basic

set_option autoImplicit false

namespace Uiso.Foundation

/-- The functions of a library of linked lists whose nodes carry an id. -/
class KeyedList {α : Type} (key : α → Nat) where
  find : Nat → List α → Option α
  remove : Nat → List α → List α
  add : α → List α → List α
  /-- what is found is the first node with the id -/
  find_eq : ∀ k l, find k l = l.find? (fun a => key a == k)
  /-- that node is removed -/
  remove_eq : ∀ k l, remove k l = l.eraseP (fun a => key a == k)
  /-- nodes with one id are added at one place -/
  add_place : ∀ a b l, key a = key b → ∃ front back, l = front ++ back ∧
    add a l = front ++ a :: back ∧ add b l = front ++ b :: back

namespace KeyedList

section Put

variable {α : Type} (key : α → Nat)

/-- The first node with an id overwritten in place. -/
def put (k : Nat) (a : α) : List α → List α
  | [] => []
  | b :: l => if key b = k then a :: l else b :: put k a l

variable {key}

@[simp] theorem map_key_put {k : Nat} {a : α} (ha : key a = k) (l : List α) :
    (put key k a l).map key = l.map key := by
  induction l with
  | nil => rfl
  | cons b l ih =>
      unfold put
      split
      · rename_i hb
        simp [ha, hb]
      · simp [ih]

theorem mem_put {k : Nat} {a x : α} {l : List α} (h : x ∈ put key k a l) :
    x = a ∨ x ∈ l := by
  induction l with
  | nil => cases h
  | cons b l ih =>
      unfold put at h
      split at h
      · rcases List.mem_cons.mp h with rfl | hx
        · exact .inl rfl
        · exact .inr (List.mem_cons_of_mem b hx)
      · rcases List.mem_cons.mp h with rfl | hx
        · exact .inr List.mem_cons_self
        · exact (ih hx).imp id (List.mem_cons_of_mem b)

theorem length_put (k : Nat) (a : α) (l : List α) : (put key k a l).length = l.length := by
  induction l with
  | nil => rfl
  | cons b l ih =>
      unfold put
      split
      · rfl
      · exact congrArg Nat.succ ih

theorem put_append {k : Nat} {a b : α} {front : List α} (hfront : ∀ c ∈ front, key c ≠ k)
    (ha : key a = k) (back : List α) :
    put key k b (front ++ a :: back) = front ++ b :: back := by
  induction front with
  | nil => exact if_pos ha
  | cons c front ih =>
      rw [List.forall_mem_cons] at hfront
      rw [List.cons_append, put, if_neg hfront.1, ih hfront.2]
      rfl

end Put

variable {α : Type} {key : α → Nat} [KeyedList key]

/-! ## Finding a node -/

theorem find_cons (k : Nat) (b : α) (l : List α) :
    find key k (b :: l) = if key b = k then some b else find key k l := by
  simp only [find_eq, List.find?_cons]
  split <;> simp_all

theorem key_of_find {k : Nat} {l : List α} {t : α} (h : find key k l = some t) :
    key t = k := by
  rw [find_eq] at h
  simpa using List.find?_some h

theorem mem_of_find {k : Nat} {l : List α} {t : α} (h : find key k l = some t) : t ∈ l := by
  rw [find_eq] at h
  exact List.mem_of_find?_eq_some h

theorem find_eq_none_iff {k : Nat} {l : List α} :
    find key k l = none ↔ ∀ b ∈ l, key b ≠ k := by
  simp [find_eq]

/-! ## Overwriting a node -/

/-- The node written is the node found. -/
theorem find_put_same {k : Nat} {a t : α} (ha : key a = k) {l : List α}
    (h : find key k l = some t) : find key k (put key k a l) = some a := by
  induction l with
  | nil =>
      rw [find_eq] at h
      cases h
  | cons b l ih =>
      rw [find_cons] at h
      unfold put
      split at h
      · rename_i hb
        rw [if_pos hb, find_cons, if_pos ha]
      · rename_i hb
        rw [if_neg hb, find_cons, if_neg hb, ih h]

/-- Nodes with other ids are found as before. -/
theorem find_put_other {j k : Nat} {a : α} (ha : key a = k) (hne : j ≠ k) (l : List α) :
    find key j (put key k a l) = find key j l := by
  induction l with
  | nil => rfl
  | cons b l ih =>
      unfold put
      split
      · rename_i hb
        rw [find_cons, find_cons, if_neg (fun h => hne (h.symm.trans ha)),
          if_neg (fun h => hne (h.symm.trans hb))]
      · rw [find_cons, find_cons, ih]

/-- Overwriting a node changes the list unless it is overwritten by itself. -/
theorem put_eq_self_iff {k : Nat} {a t : α} {l : List α} (h : find key k l = some t) :
    put key k a l = l ↔ a = t := by
  induction l with
  | nil =>
      rw [find_eq] at h
      cases h
  | cons b l ih =>
      rw [find_cons] at h
      unfold put
      split at h
      · rename_i hb
        obtain rfl : b = t := Option.some.inj h
        rw [if_pos hb]
        exact ⟨fun h => (List.cons.inj h).1, fun h => h ▸ rfl⟩
      · rename_i hb
        rw [if_neg hb, List.cons.injEq]
        exact ⟨fun h' => (ih h).mp h'.2, fun h' => ⟨rfl, (ih h).mpr h'⟩⟩

/-! ## Adding and removing a node -/

theorem add_perm (key : α → Nat) [KeyedList key] (a : α) (l : List α) :
    (add key a l).Perm (a :: l) := by
  obtain ⟨front, back, rfl, hadd, _⟩ := add_place a a l (Eq.refl (key a))
  rw [hadd]
  exact List.perm_middle

theorem add_nil (a : α) : add key a [] = [a] := List.perm_singleton.mp (add_perm key a [])

theorem length_add (a : α) (l : List α) : (add key a l).length = l.length + 1 :=
  (add_perm key a l).length_eq

theorem remove_sublist (key : α → Nat) [KeyedList key] (k : Nat) (l : List α) :
    (remove key k l).Sublist l := by
  rw [remove_eq]
  exact List.eraseP_sublist

theorem length_remove {k : Nat} {l : List α} {t : α} (h : find key k l = some t) :
    (remove key k l).length + 1 = l.length := by
  have ht := mem_of_find h
  have hk : (key t == k) = true := by simpa using key_of_find h
  have hpos := List.length_pos_of_mem ht
  have hlength := List.length_eraseP_of_mem (p := fun a => key a == k) ht hk
  rw [remove_eq]
  omega

/-- No node is found under an id that was removed from a list with distinct ids. -/
theorem find_remove {k : Nat} {l : List α} (h : (l.map key).Nodup) :
    find key k (remove key k l) = none := by
  induction l with
  | nil => simp [remove_eq, find_eq]
  | cons b l ih =>
      obtain ⟨hb, hrest⟩ := List.nodup_cons.mp h
      rw [remove_eq] at ih ⊢
      by_cases hk : key b = k
      · rw [List.eraseP_cons_of_pos (by simpa using hk), find_eq_none_iff]
        intro x hx hxk
        exact hb (List.mem_map.mpr ⟨x, hx, hxk.trans hk.symm⟩)
      · rw [List.eraseP_cons_of_neg (by simpa using hk), find_cons, if_neg hk]
        exact ih hrest

/-- No node of the front of a list has an id that is not found in it. -/
theorem front_ne {k : Nat} {front back : List α} (h : find key k (front ++ back) = none) :
    ∀ b ∈ front, key b ≠ k :=
  fun b hb => find_eq_none_iff.mp h b (List.mem_append_left back hb)

/-- A node with a new id is found once it is added. -/
theorem find_add {k : Nat} {a : α} {l : List α} (ha : key a = k) (h : find key k l = none) :
    find key k (add key a l) = some a := by
  obtain ⟨front, back, rfl, hadd, _⟩ := add_place a a l (Eq.refl (key a))
  have hfront : front.find? (fun b => key b == k) = none :=
    List.find?_eq_none.mpr fun b hb => by simpa using front_ne h b hb
  rw [hadd, find_eq, List.find?_append, hfront, List.find?_cons_of_pos (by simpa using ha)]
  rfl

/-- Some node is found under an id that was added. -/
theorem exists_find_add {k : Nat} {a : α} (ha : key a = k) (l : List α) :
    ∃ t, find key k (add key a l) = some t := by
  cases h : find key k (add key a l) with
  | none =>
      have hmem := (add_perm key a l).mem_iff.mpr List.mem_cons_self
      exact absurd ha (find_eq_none_iff.mp h a hmem)
  | some t => exact ⟨t, rfl⟩

/-- Adding a node with a new id and removing it again gives the list back. -/
theorem remove_add {k : Nat} {a : α} {l : List α} (ha : key a = k) (h : find key k l = none) :
    remove key k (add key a l) = l := by
  obtain ⟨front, back, rfl, hadd, _⟩ := add_place a a l (Eq.refl (key a))
  have hfront : ∀ b ∈ front, ¬(key b == k) = true := fun b hb => by simpa using front_ne h b hb
  rw [hadd, remove_eq, List.eraseP_append_right _ hfront,
    List.eraseP_cons_of_pos (by simpa using ha)]

/-- Overwriting a node that was added under a new id is the same as adding the other
one. -/
theorem put_add {k : Nat} {a b : α} {l : List α} (ha : key a = k) (hb : key b = k)
    (h : find key k l = none) : put key k b (add key a l) = add key b l := by
  obtain ⟨front, back, rfl, hadd, hadd'⟩ := add_place a b l (ha.trans hb.symm)
  rw [hadd, hadd', put_append (front_ne h) ha]

/-! ## Lists in the order of their ids -/

section Ordered

variable {β : Type} (id : β → Nat)

/-- A node is put in front of the first node with a greater id. -/
def insertOrdered (a : β) : List β → List β
  | [] => [a]
  | b :: l => if id b > id a then a :: b :: l else b :: insertOrdered a l

theorem insertOrdered_place {a b : β} (h : id a = id b) (l : List β) :
    ∃ front back, l = front ++ back ∧ insertOrdered id a l = front ++ a :: back ∧
      insertOrdered id b l = front ++ b :: back := by
  induction l with
  | nil => exact ⟨[], [], rfl, rfl, rfl⟩
  | cons c l ih =>
      by_cases hc : id c > id a
      · exact ⟨[], c :: l, rfl, if_pos hc, if_pos (h ▸ hc)⟩
      · obtain ⟨front, back, hl, ha, hb⟩ := ih
        refine ⟨c :: front, back, congrArg (c :: ·) hl, ?_, ?_⟩
        · rw [insertOrdered, if_neg hc, ha]
          rfl
        · rw [insertOrdered, if_neg (h ▸ hc), hb]
          rfl

/-- A library that keeps its lists in the order of their ids. -/
@[reducible] def ordered : KeyedList id where
  find k l := l.find? (fun a => id a == k)
  remove k l := l.eraseP (fun a => id a == k)
  add := insertOrdered id
  find_eq _ _ := rfl
  remove_eq _ _ := rfl
  add_place _ _ l h := insertOrdered_place id h l

end Ordered

end KeyedList

end Uiso.Foundation
