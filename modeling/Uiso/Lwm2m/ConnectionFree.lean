/-
  Lwm2m/ConnectionFree.lean --- `connection_free`, which closes the connections of the
  client when its task leaves its loop (src/lwm2m/connection.c).

  Each round closes a connection, moves on to the next node if there is one, and goes on
  while the node it has moved to has a successor.  A round that moves to the last node
  ends the loop there, with that node's connection still open.
-/
import Uiso.Lwm2m.SessionList

set_option autoImplicit false

namespace Uiso.Lwm2m

open Uiso.Foundation

namespace SessionMemory

/-! ## The source on memory -/

/-- The `do` loop, from a node on: the nodes whose contexts are handed to
`uiso_close_network_connection`, in order. -/
def closeLoop (heap : Heap) : Nat → Nat → Option (List Nat)
  | 0, _ => none
  | fuel + 1, connList =>
      match heap connList with
      | none => none
      | some next =>
          let moved := next.getD connList
          match heap moved with
          | none => none
          | some none => some [connList]
          | some (some _) => (closeLoop heap fuel moved).map (connList :: ·)

/-- `connection_free`; `none` when it does not return. -/
def connectionFree (fuel : Nat) (mem : SessionMemory) : Option (List Nat) :=
  match mem.connList with
  | none => some []
  | some connList => closeLoop mem.heap fuel connList

/-! ## Every list -/

variable {heap : Heap} {mem : SessionMemory} {l : List Nat}

/-- From a node with a successor, the loop closes all connections but the last. -/
theorem closeLoop_eq {a b : Nat} {rest : List Nat} {fuel : Nat}
    (hseg : heap.Segment (some a) (a :: b :: rest) none) (hfuel : rest.length < fuel) :
    closeLoop heap fuel a = some (a :: (b :: rest).dropLast) := by
  induction rest generalizing a b fuel with
  | nil =>
      obtain ⟨fuel, rfl⟩ := Nat.exists_eq_succ_of_ne_zero (Nat.ne_of_gt hfuel)
      obtain ⟨-, next, hnext, rfl, next', hnext', rfl⟩ := hseg
      simp only [closeLoop, hnext, Option.getD_some, hnext']
      rfl
  | cons c rest ih =>
      obtain ⟨fuel, rfl⟩ := Nat.exists_eq_succ_of_ne_zero (Nat.ne_of_gt (Nat.zero_lt_of_lt hfuel))
      obtain ⟨-, next, hnext, rfl, hrest⟩ := hseg
      have hmoved := hrest
      obtain ⟨next', hnext', rfl, -⟩ := hmoved
      have hloop := ih ⟨rfl, hrest⟩ (Nat.lt_of_succ_lt_succ hfuel)
      simp only [closeLoop, hnext, Option.getD_some, hnext', hloop, Option.map_some]
      rfl

/-- `connection_free` returns, and closes all connections of a list of at most one, and all
but the last of a longer one. -/
theorem connectionFree_eq (h : mem.Represents l) {fuel : Nat} (hfuel : l.length ≤ fuel) :
    connectionFree fuel mem = some (if l.length ≤ 1 then l else l.dropLast) := by
  have hchain := h.chain
  match l with
  | [] =>
      have hnone : mem.connList = none := hchain
      simp only [connectionFree, hnone]
      rfl
  | [a] =>
      obtain ⟨fuel, rfl⟩ := Nat.exists_eq_succ_of_ne_zero (Nat.ne_of_gt hfuel)
      obtain ⟨hhead, next, hnext, rfl⟩ := hchain
      simp only [connectionFree, hhead, closeLoop, hnext, Option.getD_none]
      rfl
  | a :: b :: rest =>
      have hhead : mem.connList = some a := hchain.1
      rw [hhead] at hchain
      have hlength : ¬(a :: b :: rest).length ≤ 1 := by simp
      rw [if_neg hlength]
      simp only [connectionFree, hhead]
      exact closeLoop_eq hchain (by simp at hfuel; omega)

/-- `connection_free` returns, and has closed the connection of every element once. -/
def ClosesEach (mem : SessionMemory) (l : List Nat) : Prop :=
  ∃ closed, (∀ fuel, l.length ≤ fuel → connectionFree fuel mem = some closed) ∧
    ∀ a ∈ l, closed.count a = 1

/-- The connections are all closed exactly when there is at most one. -/
theorem connection_free_closes_each_iff (mem : SessionMemory) (l : List Nat)
    (h : mem.Represents l) : ClosesEach mem l ↔ l.length ≤ 1 := by
  constructor
  · rintro ⟨closed, hreturns, honce⟩
    by_contra hlong
    have hclosed := connectionFree_eq h (Nat.le_refl l.length)
    rw [hreturns _ (Nat.le_refl _), if_neg hlong] at hclosed
    obtain rfl := Option.some.inj hclosed
    -- the last element is not among the others
    obtain ⟨front, z, rfl⟩ : ∃ front z, l = front ++ [z] := by
      rcases List.eq_nil_or_concat l with rfl | ⟨front, z, rfl⟩
      · exact absurd (Nat.zero_le 1) hlong
      · exact ⟨front, z, List.concat_eq_append⟩
    have hout : z ∉ front := fun hin =>
      (List.nodup_append.mp h.nodup).2.2 z hin z List.mem_cons_self rfl
    have hz := honce z (by simp)
    rw [List.dropLast_concat, List.count_eq_zero.mpr hout] at hz
    cases hz
  · intro hshort
    refine ⟨l, fun fuel hfuel => ?_, fun a ha => List.count_eq_one_of_mem h.nodup ha⟩
    rw [connectionFree_eq h hfuel, if_pos hshort]

/-- One connection, in the node 5. -/
def oneConnection : SessionMemory := ⟨Heap.empty.store 5 none, some 5⟩

theorem oneConnection_represents : oneConnection.Represents [5] where
  chain := ⟨rfl, none, rfl, rfl⟩
  nodup := List.nodup_singleton 5
  allocated := by
    intro a
    simp [oneConnection, Heap.store_ne_none_iff, Heap.empty]

theorem connection_free_closes_each_iff_one :
    oneConnection.Represents [5] ∧ ClosesEach oneConnection [5] :=
  ⟨oneConnection_represents,
    (connection_free_closes_each_iff oneConnection [5] oneConnection_represents).mpr (by decide)⟩

/-- A second one, appended to it in the node 6. -/
def twoConnections : SessionMemory := ⟨(Heap.empty.store 5 (some 6)).store 6 none, some 5⟩

/-- The second of two connections stays open. -/
theorem connection_free_leaves_last :
    ¬∀ (mem : SessionMemory) (l : List Nat), mem.Represents l → ClosesEach mem l := by
  intro h
  have hrepresents : twoConnections.Represents [5, 6] := by
    refine ⟨⟨rfl, some 6, rfl, rfl, none, rfl, rfl⟩, by decide, ?_⟩
    intro a
    simp [twoConnections, Heap.store_ne_none_iff, Heap.empty, or_comm]
  obtain ⟨closed, hreturns, honce⟩ := h twoConnections [5, 6] hrepresents
  have hclosed : some [5] = some closed := hreturns 2 (Nat.le_refl 2)
  have hsix := honce 6 (by simp)
  rw [← Option.some.inj hclosed] at hsix
  exact absurd hsix (by decide)

end SessionMemory

end Uiso.Lwm2m
