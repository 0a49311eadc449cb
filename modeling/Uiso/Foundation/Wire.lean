/-
  Foundation/Wire.lean --- bytes on a connection: streams that are delivered in pieces,
  and numbers of variable length.

  A `Stream` is what is still to be received.  Each call of `recv` is given a limit and
  takes a piece of at most that length; how long the piece is, or that the call fails,
  is decided outside, by `cuts`, one entry for each call.

      Pieces cuts   : no call fails
      Varint bs n   : `bs` is the canonical form of `n` in base 128, lowest digit first,
                      with the top bit set in every byte but the last
-/
import Mathlib.Data.Nat.Bitwise

set_option autoImplicit false

namespace Uiso.Foundation

/-! ## Streams -/

/-- The bytes that are still to be received, and the number of calls so far. -/
structure Stream where
  rest : List UInt8
  calls : Nat
  deriving DecidableEq, Repr

namespace Stream

/-- Receive at most `limit` bytes; nothing when the call fails. -/
def recv (cuts : Nat → Int) (limit : Int) (s : Stream) : List UInt8 × Stream :=
  let size := (min (cuts s.calls) limit).toNat
  (s.rest.take size, ⟨s.rest.drop size, s.calls + 1⟩)

/-- Every call receives a piece of at least one byte. -/
def Pieces (cuts : Nat → Int) : Prop := ∀ call, 1 ≤ cuts call

/-- A call that may receive all of `pre` receives a front part of it, which is not empty. -/
theorem recv_split {cuts : Nat → Int} (hcuts : Pieces cuts) {s : Stream} {pre post : List UInt8}
    (hrest : s.rest = pre ++ post) (hpre : pre ≠ []) :
    (s.recv cuts pre.length).1 ≠ [] ∧ ∃ mid, pre = (s.recv cuts pre.length).1 ++ mid ∧
      (s.recv cuts pre.length).2.rest = mid ++ post := by
  have hcut := hcuts s.calls
  have hpos : 0 < pre.length := List.length_pos_iff.mpr hpre
  obtain ⟨size, hsize, hle⟩ : ∃ size, (min (cuts s.calls) pre.length).toNat = size + 1 ∧
      size + 1 ≤ pre.length := by
    refine ⟨(min (cuts s.calls) pre.length).toNat - 1, ?_, ?_⟩ <;> omega
  simp only [recv, hsize, hrest, List.take_append_of_le_length hle,
    List.drop_append_of_le_length hle]
  refine ⟨?_, pre.drop (size + 1), (List.take_append_drop _ _).symm, rfl⟩
  intro hnil
  have hlength : (pre.take (size + 1)).length = size + 1 := List.length_take_of_le hle
  rw [hnil] at hlength
  cases hlength

end Stream

/-! ## Numbers of variable length -/

/-- The canonical form of a number in base 128: no form ends in a digit that is zero, except
that of zero itself. -/
inductive Varint : List UInt8 → Nat → Prop where
  | last (b : UInt8) (hb : b.toNat < 128) : Varint [b] b.toNat
  | more {bs : List UInt8} {n : Nat} (b : UInt8) (hb : 128 ≤ b.toNat) (hbs : Varint bs n)
      (hn : 0 < n) : Varint (b :: bs) (b.toNat - 128 + 128 * n)

/-- The low seven bits of a byte. -/
theorem toNat_and_127 (b : UInt8) : (b &&& 127).toNat = b.toNat % 128 := by
  rw [UInt8.toNat_and]
  exact Nat.and_two_pow_sub_one_eq_mod b.toNat 7

/-- The top bit of a byte. -/
theorem and_128_eq_zero_iff (b : UInt8) : b &&& 128 = 0 ↔ b.toNat < 128 := by
  have hb := b.toNat_lt
  have hand : (b &&& 128).toNat = (b.toNat.testBit 7).toNat * 2 ^ 7 := by
    rw [UInt8.toNat_and]
    exact Nat.and_two_pow b.toNat 7
  rw [← UInt8.toNat_inj, hand, Nat.testBit_eq_decide_div_mod_eq]
  by_cases hlow : b.toNat < 128
  · have hdiv : b.toNat / 128 % 2 = 0 := by omega
    simp [hdiv, hlow]
  · have hdiv : b.toNat / 128 % 2 = 1 := by omega
    simp [hdiv, hlow]

/-- A digit with its top bit set. -/
theorem toNat_or_128 {n : Nat} (hn : n < 128) : (UInt8.ofNat n ||| 128).toNat = n + 128 := by
  have hadd := Nat.two_pow_add_eq_or_of_lt (i := 7) hn 1
  rw [UInt8.toNat_or, UInt8.toNat_ofNat_of_lt' (by omega : n < 2 ^ 8), Nat.or_comm, Nat.add_comm]
  exact hadd.symm

end Uiso.Foundation
