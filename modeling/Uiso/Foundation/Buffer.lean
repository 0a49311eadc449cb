/-
  Foundation/Buffer.lean --- fixed arrays of bytes as C programs use them: 32-bit
  loads and stores, and writes that start at the front of the array.

      load b k       : the little-endian word at offset `k`
      store b k x    : the same word replaced
      write b bytes  : the front of the array replaced, the rest as it was
      writeAt b k bytes : the bytes from offset `k` on replaced, the rest as it was
      strncpy b s k  : the first `k` bytes replaced by the string at the front of `s`
      cString b      : the bytes before the first NUL, if there is one

  A `write` is a `recv` into the array as well as a `strncpy` to it: it never
  touches what lies behind the bytes it was given.  `cString_eq_some` says of an
  array, position by position, that it holds a given string.
-/
import Mathlib.Algebra.Ring.Nat
import Mathlib.Data.List.TakeWhile
import Mathlib.Logic.Basic

set_option autoImplicit false

namespace Uiso.Foundation

/-! ## Words -/

/-- The little-endian word of four bytes. -/
def wordOfBytes (b₀ b₁ b₂ b₃ : UInt8) : UInt32 :=
  UInt32.ofNat (b₀.toNat + 256 * b₁.toNat + 65536 * b₂.toNat + 16777216 * b₃.toNat)

/-- Byte `k` of a word. -/
def byteOfWord (x : UInt32) (k : Nat) : UInt8 := UInt8.ofNat (x.toNat / 256 ^ k)

theorem wordOfBytes_byteOfWord (x : UInt32) :
    wordOfBytes (byteOfWord x 0) (byteOfWord x 1) (byteOfWord x 2) (byteOfWord x 3) = x := by
  have hx := x.toNat_lt
  apply UInt32.toNat_inj.mp
  simp [wordOfBytes, byteOfWord]
  omega

/-! ## Arrays -/

/-- An array of `n` bytes. -/
def Buffer (n : Nat) := Fin n → UInt8

namespace Buffer

variable {n : Nat}

instance : DecidableEq (Buffer n) := fun a b =>
  have : DecidablePred (fun i : Fin n => a i = b i) := fun i =>
    inferInstanceAs (Decidable ((a i : UInt8) = b i))
  have := Nat.decidableForallFin (fun i : Fin n => a i = b i)
  decidable_of_iff (∀ i : Fin n, a i = b i) ⟨funext, fun h i => congrFun h i⟩

/-- An array after `memset(.., 0, ..)`, or a static one at start-up. -/
def zero (n : Nat) : Buffer n := fun _ => 0

/-- The byte at an offset; past the end, where no correct program reads, zero. -/
def byte (b : Buffer n) (k : Nat) : UInt8 := if h : k < n then b ⟨k, h⟩ else 0

/-- The word at an offset. -/
def load (b : Buffer n) (k : Nat) : UInt32 :=
  wordOfBytes (b.byte k) (b.byte (k + 1)) (b.byte (k + 2)) (b.byte (k + 3))

/-- The byte at an offset replaced. -/
def setByte (b : Buffer n) (k : Nat) (x : UInt8) : Buffer n :=
  fun i => if i.val = k then x else b i

/-- The word at an offset replaced. -/
def store (b : Buffer n) (k : Nat) (x : UInt32) : Buffer n :=
  fun i => if k ≤ i.val ∧ i.val < k + 4 then byteOfWord x (i.val - k) else b i

/-- The front of the array replaced. -/
def write (b : Buffer n) (bytes : List UInt8) : Buffer n :=
  fun i => (bytes[i.val]?).getD (b i)

/-- The bytes from an offset on replaced. -/
def writeAt (b : Buffer n) (k : Nat) (bytes : List UInt8) : Buffer n :=
  fun i => if i.val < k then b i else (bytes[i.val - k]?).getD (b i)

/-- `strncpy(b, source, count)`: the source up to its first NUL and zeros after it, `count`
bytes in all; the bytes behind them are not touched. -/
def strncpy (b : Buffer n) (source : List UInt8) (count : Nat) : Buffer n :=
  fun i =>
    if i.val < count then
      if 0 ∈ source.take i.val then 0 else (source[i.val]?).getD 0
    else b i

/-- Arrays with the same bytes are the same. -/
theorem ext_byte {a b : Buffer n} (h : ∀ k < n, a.byte k = b.byte k) : a = b := by
  funext i
  have hi := h i.val i.isLt
  simpa [byte] using hi

theorem byte_store_of_mem {b : Buffer n} {k i : Nat} {x : UInt32} (hi : i < n)
    (h : k ≤ i ∧ i < k + 4) : (b.store k x).byte i = byteOfWord x (i - k) := by
  simp [byte, store, hi, h]

theorem byte_store_of_not_mem {b : Buffer n} {k i : Nat} {x : UInt32}
    (h : ¬(k ≤ i ∧ i < k + 4)) : (b.store k x).byte i = b.byte i := by
  simp [byte, store, h]

/-- A word is read back where it was stored. -/
theorem load_store_same (b : Buffer n) {k : Nat} (x : UInt32) (hk : k + 4 ≤ n) :
    (b.store k x).load k = x := by
  have hbytes := wordOfBytes_byteOfWord x
  simp only [load]
  rw [byte_store_of_mem (by omega) (by omega), byte_store_of_mem (by omega) (by omega),
    byte_store_of_mem (by omega) (by omega), byte_store_of_mem (by omega) (by omega)]
  simpa using hbytes

/-- A store leaves the words it does not overlap. -/
theorem load_store_other (b : Buffer n) {j k : Nat} (x : UInt32) (h : j + 4 ≤ k ∨ k + 4 ≤ j) :
    (b.store k x).load j = b.load j := by
  simp only [load]
  rw [byte_store_of_not_mem (by omega), byte_store_of_not_mem (by omega),
    byte_store_of_not_mem (by omega), byte_store_of_not_mem (by omega)]

theorem byte_write (b : Buffer n) (bytes : List UInt8) {k : Nat} (hk : k < n) :
    (b.write bytes).byte k = (bytes[k]?).getD (b.byte k) := by
  simp [byte, write, hk]

theorem byte_writeAt (b : Buffer n) (k : Nat) (bytes : List UInt8) {i : Nat} (hi : i < n) :
    (b.writeAt k bytes).byte i =
      if i < k then b.byte i else (bytes[i - k]?).getD (b.byte i) := by
  simp [byte, writeAt, hi]

theorem byte_strncpy_of_lt (b : Buffer n) (source : List UInt8) {count k : Nat} (hk : k < n)
    (h : k < count) :
    (b.strncpy source count).byte k =
      if 0 ∈ source.take k then 0 else (source[k]?).getD 0 := by
  simp [byte, strncpy, hk, h]

theorem byte_strncpy_of_le (b : Buffer n) (source : List UInt8) {count k : Nat}
    (h : count ≤ k) : (b.strncpy source count).byte k = b.byte k := by
  have hlt : ¬k < count := by omega
  simp [byte, strncpy, hlt]

/-- A write that fills the array leaves nothing of what was there. -/
theorem write_of_length_eq {bytes : List UInt8} (h : bytes.length = n) (b c : Buffer n) :
    b.write bytes = c.write bytes := by
  funext i
  have hi : i.val < bytes.length := by omega
  simp [write, List.getElem?_eq_getElem hi]

/-! ## Strings -/

/-- The array as a list. -/
def bytes (b : Buffer n) : List UInt8 := List.ofFn fun p : Fin n => b.byte p.val

/-- The bytes before the first NUL; `none` when there is no NUL in the array. -/
def cString (b : Buffer n) : Option (List UInt8) :=
  if 0 ∈ b.bytes then some (b.bytes.takeWhile (· ≠ 0)) else none

/-- The bytes of a list before its first zero. -/
theorem takeWhile_ne_zero_iff : ∀ {l s : List UInt8},
    0 ∈ l ∧ l.takeWhile (· ≠ 0) = s ↔ 0 ∉ s ∧ ∃ post, l = s ++ 0 :: post := by
  intro l
  induction l with
  | nil => simp
  | cons c l ih =>
      intro s
      by_cases hc : c = 0
      · subst hc
        cases s with
        | nil => simp
        | cons d s =>
            refine iff_of_false (by simp) ?_
            rintro ⟨hs, post, hsplit⟩
            have hd : 0 = d := (List.cons.inj hsplit).1
            exact hs (by simp [hd])
      · cases s with
        | nil => simp [hc]
        | cons d s =>
            have hrest := ih (s := s)
            simp only [ne_eq, decide_not, List.mem_cons, List.takeWhile_cons, hc, decide_false,
              Bool.not_false, if_true, List.cons.injEq, List.cons_append, not_or,
              Ne.symm (a := c) hc, false_or] at hrest ⊢
            constructor
            · rintro ⟨hmem, rfl, htake⟩
              obtain ⟨hs, post, rfl⟩ := hrest.mp ⟨hmem, htake⟩
              exact ⟨⟨fun h => hc h.symm, hs⟩, post, rfl, rfl⟩
            · rintro ⟨⟨_, hs⟩, post, rfl, rfl⟩
              obtain ⟨hmem, htake⟩ := hrest.mpr ⟨hs, post, rfl⟩
              exact ⟨hmem, rfl, htake⟩

theorem getElem?_bytes (b : Buffer n) {p : Nat} (hp : p < n) :
    b.bytes[p]? = some (b.byte p) := by
  simp [bytes, hp]

/-- The array starts with some bytes. -/
def Starts (b : Buffer n) (s : List UInt8) : Prop := b.bytes.take s.length = s

theorem starts_iff {b : Buffer n} {s : List UInt8} (hs : s.length ≤ n) :
    b.Starts s ↔ ∀ p < s.length, s[p]? = some (b.byte p) := by
  constructor
  · intro htake p hp
    have hbyte : (b.bytes.take s.length)[p]? = s[p]? := congrArg (fun l => l[p]?) htake
    rw [List.getElem?_take_of_lt hp, getElem?_bytes b (by omega)] at hbyte
    exact hbyte.symm
  · intro hbytes
    apply List.ext_getElem?
    intro p
    by_cases hp : p < s.length
    · rw [List.getElem?_take_of_lt hp, getElem?_bytes b (by omega), hbytes p hp]
    · rw [List.getElem?_take_eq_none (by omega), List.getElem?_eq_none (by omega)]

/-- Bytes written right behind those the array starts with. -/
theorem Starts.writeAt {b : Buffer n} {s t : List UInt8} (h : b.Starts s)
    (hn : s.length + t.length ≤ n) : (b.writeAt s.length t).Starts (s ++ t) := by
  have hlength : (s ++ t).length = s.length + t.length := List.length_append
  rw [starts_iff (by omega)] at h ⊢
  intro p hp
  rw [byte_writeAt b _ _ (by omega)]
  by_cases hs : p < s.length
  · rw [List.getElem?_append_left hs, h p hs, if_pos hs]
  · have ht : p - s.length < t.length := by omega
    rw [List.getElem?_append_right (by omega), if_neg hs, List.getElem?_eq_getElem ht]
    rfl

theorem Starts.byte_zero {b : Buffer n} {x : UInt8} {s : List UInt8} (h : b.Starts (x :: s))
    (hn : s.length < n) : b.byte 0 = x := by
  have hbyte := (starts_iff (Nat.succ_le_of_lt hn)).mp h 0 (Nat.zero_lt_succ _)
  exact (Option.some.inj hbyte).symm

/-- An array holds a string precisely if its bytes are the string's, a NUL follows them,
and there is none among them. -/
theorem cString_eq_some {b : Buffer n} {s : List UInt8} :
    b.cString = some s ↔ s.length < n ∧ 0 ∉ s ∧
      (∀ p, p < s.length → s[p]? = some (b.byte p)) ∧ b.byte s.length = 0 := by
  have hcString : b.cString = some s ↔ 0 ∉ s ∧ ∃ post, b.bytes = s ++ 0 :: post := by
    rw [← takeWhile_ne_zero_iff, cString]
    split <;> simp [*]
  have hlength : b.bytes.length = n := List.length_ofFn
  rw [hcString]
  constructor
  · rintro ⟨hs, post, hsplit⟩
    have hlt : s.length < n := by
      rw [hsplit] at hlength
      simp at hlength
      omega
    refine ⟨hlt, hs, fun p hp => ?_, ?_⟩
    · rw [← getElem?_bytes b (by omega), hsplit, List.getElem?_append_left hp]
    · have hnul := getElem?_bytes b hlt
      rw [hsplit] at hnul
      simpa using hnul.symm
  · rintro ⟨hlt, hs, hbytes, hnul⟩
    refine ⟨hs, b.bytes.drop (s.length + 1), ?_⟩
    apply List.ext_getElem?
    intro p
    rcases Nat.lt_trichotomy p s.length with hp | rfl | hp
    · rw [List.getElem?_append_left hp, hbytes p hp, getElem?_bytes b (by omega)]
    · rw [getElem?_bytes b hlt, hnul]
      simp
    · obtain ⟨q, rfl⟩ := Nat.exists_eq_add_of_lt hp
      rw [List.getElem?_append_right (by omega)]
      have hq : s.length + q + 1 - s.length = q + 1 := by omega
      rw [hq, List.getElem?_cons_succ, List.getElem?_drop]
      congr 1
      omega

end Buffer

end Uiso.Foundation
