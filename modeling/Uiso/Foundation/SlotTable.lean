/-
  Foundation/SlotTable.lean --- arrays of slots as finite maps.

  A slot is free or holds a key and a value, as `entry` says of it; what else a free slot
  holds does not matter.

      entries l        : what the slots hold, in their order
      Represents l m   : the slots hold the finite map `m`

  A slot can be filled, overwritten and freed.  Each is one assignment to the array, and
  each is an operation of the finite map.
-/
import Mathlib.Data.Finmap

set_option autoImplicit false

namespace Uiso.Foundation

namespace SlotTable

variable {α κ β : Type} (entry : α → Option (Σ _ : κ, β))

/-- What the slots hold. -/
def entries (l : List α) : List (Σ _ : κ, β) := l.filterMap entry

/-- The slots hold a finite map. -/
def Represents (l : List α) (m : Finmap fun _ : κ => β) : Prop :=
  m.entries = (entries entry l : Multiset (Σ _ : κ, β))

variable {entry}

/-- One slot and the others: an assignment to the slot leaves what the others hold. -/
theorem entries_set (entry : α → Option (Σ _ : κ, β)) {l : List α} {i : Nat} {a : α}
    (h : l[i]? = some a) :
    ∃ rest, (entries entry l).Perm ((entry a).toList ++ rest) ∧
      ∀ b, (entries entry (l.set i b)).Perm ((entry b).toList ++ rest) := by
  obtain ⟨hi, rfl⟩ := List.getElem?_eq_some_iff.mp h
  have hslot : ∀ b, (entries entry (l.take i ++ b :: l.drop (i + 1))).Perm
      ((entry b).toList ++ entries entry (l.take i ++ l.drop (i + 1))) := by
    intro b
    have hmiddle : (l.take i ++ b :: l.drop (i + 1)).Perm (b :: (l.take i ++ l.drop (i + 1))) :=
      List.perm_middle
    refine (hmiddle.filterMap entry).trans (.of_eq ?_)
    cases hb : entry b <;> simp [entries, hb]
  refine ⟨entries entry (l.take i ++ l.drop (i + 1)), ?_, ?_⟩
  · have hl := hslot l[i]
    rwa [List.getElem_cons_drop, List.take_append_drop] at hl
  · intro b
    rw [List.set_eq_take_append_cons_drop, if_pos hi]
    exact hslot b

theorem represents_nil_iff {l : List α} :
    Represents entry l (∅ : Finmap fun _ : κ => β) ↔ ∀ a ∈ l, entry a = none := by
  have hempty : (∅ : Finmap fun _ : κ => β).entries = 0 := rfl
  rw [Represents, hempty, eq_comm, Multiset.coe_eq_zero, entries, List.filterMap_eq_nil_iff]

variable {l : List α} {m : Finmap fun _ : κ => β}

/-- As many keys as slots that hold something. -/
theorem Represents.card_keys (h : Represents entry l m) :
    m.keys.card = (entries entry l).length := by
  have hcard : m.keys.card = m.entries.card := Multiset.card_map _ _
  rw [hcard, h, Multiset.coe_card]

/-- What a slot with a key holds, and what the others hold. -/
theorem Represents.entries_of_slot (h : Represents entry l m) {i : Nat} {a : α} {k : κ} {u : β}
    (ha : l[i]? = some a) (hslot : entry a = some ⟨k, u⟩) : ∃ rest : List (Σ _ : κ, β),
      m.entries = (([⟨k, u⟩] ++ rest : List (Σ _ : κ, β)) : Multiset _) ∧ k ∉ rest.keys ∧
      ∀ b, (entries entry (l.set i b)).Perm ((entry b).toList ++ rest) := by
  obtain ⟨rest, hl, hset⟩ := entries_set entry ha
  rw [hslot] at hl
  have hm : m.entries = (([⟨k, u⟩] ++ rest : List (Σ _ : κ, β)) : Multiset _) := by
    rw [h]
    exact Multiset.coe_eq_coe.mpr hl
  have hnodup : ([⟨k, u⟩] ++ rest : List (Σ _ : κ, β)).NodupKeys := by
    rw [← Multiset.coe_nodupKeys, ← hm]
    exact m.nodupKeys
  exact ⟨rest, hm, (List.nodupKeys_cons.mp hnodup).1, hset⟩

variable [DecidableEq κ]

theorem Represents.lookup_eq_some_iff (h : Represents entry l m) {k : κ} {v : β} :
    m.lookup k = some v ↔ ⟨k, v⟩ ∈ entries entry l := by
  rw [Finmap.lookup_eq_some_iff, h, Multiset.mem_coe]

theorem Represents.mem_iff (h : Represents entry l m) {k : κ} :
    k ∈ m ↔ ∃ a ∈ l, ∃ v, entry a = some ⟨k, v⟩ := by
  rw [Finmap.mem_iff]
  simp only [h.lookup_eq_some_iff, entries, List.mem_filterMap]
  exact ⟨fun ⟨v, a, ha, hv⟩ => ⟨a, ha, v, hv⟩, fun ⟨a, ha, v, hv⟩ => ⟨v, a, ha, hv⟩⟩

/-- A key put into a finite map, whose other keys are known. -/
theorem entries_insert {old rest : List (Σ _ : κ, β)} {k : κ} (v : β)
    (hm : m.entries = (old ++ rest : List (Σ _ : κ, β))) (hold : ∀ e ∈ old, e.1 = k)
    (hrest : k ∉ rest.keys) :
    (m.insert k v).entries = (⟨k, v⟩ :: rest : List (Σ _ : κ, β)) := by
  have hnodup : (old ++ rest : List (Σ _ : κ, β)).NodupKeys := by
    rw [← Multiset.coe_nodupKeys, ← hm]
    exact m.nodupKeys
  have hnew : (⟨k, v⟩ :: rest : List (Σ _ : κ, β)).NodupKeys :=
    List.nodupKeys_cons.mpr ⟨hrest, hnodup.sublist (List.sublist_append_right old rest)⟩
  have heq : m.insert k v = ⟨((⟨k, v⟩ :: rest : List (Σ _ : κ, β)) : Multiset _),
      Multiset.coe_nodupKeys.mpr hnew⟩ := by
    apply Finmap.ext_lookup
    intro x
    by_cases hx : x = k
    · subst hx
      rw [Finmap.lookup_insert, eq_comm, Finmap.lookup_eq_some_iff]
      simp
    · rw [Finmap.lookup_insert_of_ne _ hx]
      apply Option.ext
      intro b
      have holdx : ⟨x, b⟩ ∉ old := fun hmem => hx (hold _ hmem)
      rw [Finmap.lookup_eq_some_iff, Finmap.lookup_eq_some_iff, hm]
      simp [holdx, hx]
  rw [heq]

/-- A key taken from a finite map. -/
theorem entries_erase {old rest : List (Σ _ : κ, β)} {k : κ}
    (hm : m.entries = (old ++ rest : List (Σ _ : κ, β))) (hold : ∀ e ∈ old, e.1 = k)
    (hrest : k ∉ rest.keys) : (m.erase k).entries = (rest : Multiset (Σ _ : κ, β)) := by
  have hnodup : (old ++ rest : List (Σ _ : κ, β)).NodupKeys := by
    rw [← Multiset.coe_nodupKeys, ← hm]
    exact m.nodupKeys
  have heq : m.erase k = ⟨(rest : Multiset _),
      Multiset.coe_nodupKeys.mpr (hnodup.sublist (List.sublist_append_right old rest))⟩ := by
    apply Finmap.ext_lookup
    intro x
    apply Option.ext
    intro b
    by_cases hx : x = k
    · subst hx
      rw [Finmap.lookup_erase, Finmap.lookup_eq_some_iff]
      simp only [reduceCtorEq, Multiset.mem_coe, false_iff]
      exact fun hmem => hrest (List.mem_keys_of_mem hmem)
    · have holdx : ⟨x, b⟩ ∉ old := fun hmem => hx (hold _ hmem)
      rw [Finmap.lookup_erase_ne hx, Finmap.lookup_eq_some_iff, Finmap.lookup_eq_some_iff, hm]
      simp [holdx]
  rw [heq]

/-! ## Assignments -/

/-- A free slot is filled with a key that is not in the table. -/
theorem Represents.fill (h : Represents entry l m) {i : Nat} {a b : α} {k : κ} {v : β}
    (ha : l[i]? = some a) (hfree : entry a = none) (hb : entry b = some ⟨k, v⟩) (hk : k ∉ m) :
    Represents entry (l.set i b) (m.insert k v) := by
  obtain ⟨rest, hl, hset⟩ := entries_set entry ha
  rw [hfree] at hl
  have hm : m.entries = (([] ++ rest : List (Σ _ : κ, β)) : Multiset _) := by
    rw [h]
    exact Multiset.coe_eq_coe.mpr hl
  have hrest : k ∉ rest.keys := by
    intro hmem
    refine hk ((Finmap.mem_def).mpr ?_)
    rw [hm]
    exact hmem
  rw [Represents, entries_insert v hm (fun e he => absurd he (by simp)) hrest]
  have hset' := hset b
  rw [hb] at hset'
  exact (Multiset.coe_eq_coe.mpr hset').symm

/-- A slot is overwritten by another value of its key. -/
theorem Represents.overwrite (h : Represents entry l m) {i : Nat} {a b : α} {k : κ} {u v : β}
    (ha : l[i]? = some a) (hslot : entry a = some ⟨k, u⟩) (hb : entry b = some ⟨k, v⟩) :
    Represents entry (l.set i b) (m.insert k v) := by
  obtain ⟨rest, hm, hrest, hset⟩ := h.entries_of_slot ha hslot
  rw [Represents, entries_insert v hm (by simp) hrest]
  have hset' := hset b
  rw [hb] at hset'
  exact (Multiset.coe_eq_coe.mpr hset').symm

/-- A slot is freed. -/
theorem Represents.free (h : Represents entry l m) {i : Nat} {a b : α} {k : κ} {u : β}
    (ha : l[i]? = some a) (hslot : entry a = some ⟨k, u⟩) (hb : entry b = none) :
    Represents entry (l.set i b) (m.erase k) := by
  obtain ⟨rest, hm, hrest, hset⟩ := h.entries_of_slot ha hslot
  rw [Represents, entries_erase hm (by simp) hrest]
  have hset' := hset b
  rw [hb] at hset'
  exact (Multiset.coe_eq_coe.mpr hset').symm

end SlotTable

end Uiso.Foundation
