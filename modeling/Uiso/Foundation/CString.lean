/-
  Foundation/CString.lean --- allocated blocks of characters, pointers into them, and
  the C functions on the strings they hold.

      Blocks         : the allocated blocks, by number
      tail m p       : what lies from the pointer `p` to the end of its block
      read, write    : `*p` and `*p = c`
      strlen, strrchr, startsWith, cString : on what lies from a pointer on

  Every access is checked: a program that reads or writes outside a block, or follows a
  string past the end of its block, gives `none`.  The lemmas are stated for a block
  that is written out around the place of the access, with an arbitrary rest.
-/
import Mathlib.Logic.Basic

set_option autoImplicit false

namespace Uiso.Foundation

/-! ## Blocks and pointers -/

/-- The allocated blocks. -/
def Blocks (α : Type) : Type := Nat → Option (List α)

/-- A place in a block, or the place behind its end. -/
structure Ptr where
  block : Nat
  offset : Nat
  deriving DecidableEq, Repr

/-- `p + n` -/
def Ptr.add (p : Ptr) (n : Nat) : Ptr := { p with offset := p.offset + n }

/-- `p - 1`; there is nothing before a block. -/
def Ptr.pred (p : Ptr) : Option Ptr :=
  match p.offset with
  | 0 => none
  | offset + 1 => some { p with offset := offset }

namespace Blocks

variable {α : Type}

/-- A block with the given contents. -/
def alloc (m : Blocks α) (block : Nat) (contents : List α) : Blocks α :=
  fun b => if b = block then some contents else m b

/-- No block. -/
def free (m : Blocks α) (block : Nat) : Blocks α := fun b => if b = block then none else m b

/-- What lies from a pointer to the end of its block. -/
def tail (m : Blocks α) (p : Ptr) : Option (List α) :=
  match m p.block with
  | none => none
  | some contents =>
      if p.offset ≤ contents.length then some (contents.drop p.offset) else none

/-- `*p` -/
def read (m : Blocks α) (p : Ptr) : Option α :=
  match m p.block with
  | none => none
  | some contents => contents[p.offset]?

/-- `*p = c` -/
def write (m : Blocks α) (p : Ptr) (c : α) : Option (Blocks α) :=
  match m p.block with
  | none => none
  | some contents =>
      if p.offset < contents.length then some (m.alloc p.block (contents.set p.offset c)) else none

variable {m : Blocks α} {block n : Nat} {front back : List α} {c d : α}

@[simp] theorem alloc_same (m : Blocks α) (block : Nat) (contents : List α) :
    m.alloc block contents block = some contents := if_pos rfl

@[simp] theorem alloc_alloc (m : Blocks α) (block : Nat) (contents contents' : List α) :
    (m.alloc block contents).alloc block contents' = m.alloc block contents' := by
  funext b
  unfold alloc
  split <;> rfl

/-- A block that is freed again leaves no trace. -/
theorem free_alloc (h : m block = none) (contents : List α) :
    (m.alloc block contents).free block = m := by
  funext b
  unfold free alloc
  split
  · rename_i hb
    rw [hb, h]
  · rfl

theorem tail_eq (hm : m block = some (front ++ back)) (hn : n = front.length) :
    m.tail ⟨block, n⟩ = some back := by
  subst hn
  simp [tail, hm]

theorem read_eq (hm : m block = some (front ++ c :: back)) (hn : n = front.length) :
    m.read ⟨block, n⟩ = some c := by
  subst hn
  simp [read, hm]

theorem write_eq (hm : m block = some (front ++ c :: back)) (hn : n = front.length) (d : α) :
    m.write ⟨block, n⟩ d = some (m.alloc block (front ++ d :: back)) := by
  subst hn
  simp [write, hm]

end Blocks

/-! ## Strings -/

namespace CString

variable {α : Type} [DecidableEq α] (nul : α)

/-- `strlen` -/
def strlen : List α → Option Nat
  | [] => none
  | c :: l => if c = nul then some 0 else (strlen l).map (· + 1)

/-- The string itself, without its NUL. -/
def cString : List α → Option (List α)
  | [] => none
  | c :: l => if c = nul then some [] else (cString l).map (c :: ·)

/-- `0 == strncmp(s, text, strlen(text))`: the comparison ends at the first
difference. -/
def startsWith : List α → List α → Option Bool
  | _, [] => some true
  | [], _ :: _ => none
  | c :: l, d :: text => if c = d then startsWith l text else some false

/-- `strrchr(s, c) - s`, for a character that is not the NUL. -/
def strrchr (c : α) : List α → Option (Option Nat)
  | [] => none
  | d :: l =>
      if d = nul then some none
      else
        match strrchr c l with
        | none => none
        | some (some i) => some (some (i + 1))
        | some none => some (if d = c then some 0 else none)

variable {nul} {s l text : List α} {c : α}

theorem strlen_eq (hs : nul ∉ s) (l : List α) : strlen nul (s ++ nul :: l) = some s.length := by
  induction s with
  | nil => simp [strlen]
  | cons d s ih =>
      rw [List.mem_cons, not_or] at hs
      simp [strlen, Ne.symm hs.1, ih hs.2]

theorem cString_eq (hs : nul ∉ s) (l : List α) : cString nul (s ++ nul :: l) = some s := by
  induction s with
  | nil => simp [cString]
  | cons d s ih =>
      rw [List.mem_cons, not_or] at hs
      simp [cString, Ne.symm hs.1, ih hs.2]

/-- The comparison with a text does not run past the string's NUL. -/
theorem startsWith_eq (htext : nul ∉ text) (s l : List α) :
    startsWith (s ++ nul :: l) text = some (text.isPrefixOf s) := by
  induction text generalizing s with
  | nil => cases s <;> simp [startsWith]
  | cons d text ih =>
      rw [List.mem_cons, not_or] at htext
      cases s with
      | nil => simp [startsWith, htext.1, List.isPrefixOf]
      | cons e s =>
          by_cases heq : e = d
          · simp [startsWith, heq, ih htext.2, List.isPrefixOf]
          · simp [startsWith, heq, Ne.symm heq, List.isPrefixOf]

theorem strrchr_eq_none (hs : nul ∉ s) (hc : c ∉ s) (l : List α) :
    strrchr nul c (s ++ nul :: l) = some none := by
  induction s with
  | nil => simp [strrchr]
  | cons d s ih =>
      rw [List.mem_cons, not_or] at hs hc
      simp [strrchr, Ne.symm hs.1, Ne.symm hc.1, ih hs.2 hc.2]

theorem strrchr_eq_some {after : List α} (hs : nul ∉ s) (hc : nul ≠ c) (hafter : nul ∉ after)
    (hlast : c ∉ after) (l : List α) :
    strrchr nul c (s ++ c :: (after ++ nul :: l)) = some (some s.length) := by
  induction s with
  | nil => simp [strrchr, Ne.symm hc, strrchr_eq_none hafter hlast]
  | cons d s ih =>
      rw [List.mem_cons, not_or] at hs
      simp [strrchr, Ne.symm hs.1, ih hs.2]

end CString

end Uiso.Foundation
