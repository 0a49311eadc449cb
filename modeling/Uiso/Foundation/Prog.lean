/-
  Foundation/Prog.lean --- programs that call into an environment, and the rules
  of pre- and postconditions for them.

  A program runs on a state that also holds the answers the environment will
  give.  It either returns, or it is left waiting inside a call whose answer is
  not there; in both cases the state reached so far is kept, so a statement
  about everything a program does also covers calls that never come back.

      Triple P m Q R : started in `P`, the program `m` returns in `Q` or is left
                       waiting in `R`

  The rules below are the ones the network code needs: sequencing, branching by
  `split`, and the retry loop `do r = m(); while (again(r))`.
-/
import Mathlib.Logic.Basic

set_option autoImplicit false

namespace Uiso.Foundation

/-- What a program has come to. -/
inductive Outcome (σ α : Type) where
  | returned (value : α) (state : σ)
  | waiting (state : σ)
  deriving DecidableEq, Repr

/-- A program on states `σ` that returns an `α`. -/
def Prog (σ α : Type) : Type := σ → Outcome σ α

namespace Prog

variable {σ α β : Type}

instance : Monad (Prog σ) where
  pure a := fun s => .returned a s
  bind m k := fun s =>
    match m s with
    | .returned a s' => k a s'
    | .waiting s' => .waiting s'

/-- Run a total function of the state. -/
def lift (f : σ → α × σ) : Prog σ α := fun s => .returned (f s).1 (f s).2

/-- Change the state. -/
def modify (f : σ → σ) : Prog σ Unit := fun s => .returned () (f s)

/-- Never return. -/
def wait : Prog σ α := fun s => .waiting s

@[simp] theorem pure_apply (a : α) (s : σ) : (pure a : Prog σ α) s = .returned a s := rfl

@[simp] theorem lift_apply (f : σ → α × σ) (s : σ) : lift f s = .returned (f s).1 (f s).2 := rfl

@[simp] theorem modify_apply (f : σ → σ) (s : σ) : modify f s = .returned () (f s) := rfl

theorem bind_returned {m : Prog σ α} {k : α → Prog σ β} {s s' : σ} {a : α}
    (h : m s = .returned a s') : (m >>= k) s = k a s' := by
  show (match m s with
    | .returned a s' => k a s'
    | .waiting s' => .waiting s') = k a s'
  rw [h]

theorem bind_waiting {m : Prog σ α} {k : α → Prog σ β} {s s' : σ}
    (h : m s = .waiting s') : (m >>= k) s = .waiting s' := by
  show (match m s with
    | .returned a s' => k a s'
    | .waiting s' => .waiting s') = .waiting s'
  rw [h]

/-- `do r = m(); while (again(r))`, with a bound on the number of rounds. -/
def retry (again : α → Bool) (m : Prog σ α) : Nat → Prog σ α
  | 0 => wait
  | n + 1 => do
      let r ← m
      if again r then retry again m n else pure r

/-! ## Triples -/

/-- Started in a state of `P`, `m` returns a value and a state of `Q` or is left
waiting in a state of `R`. -/
def Triple (P : σ → Prop) (m : Prog σ α) (Q : α → σ → Prop) (R : σ → Prop) : Prop :=
  ∀ s, P s →
    match m s with
    | .returned a s' => Q a s'
    | .waiting s' => R s'

variable {P P' R R' I : σ → Prop} {Q Q' : α → σ → Prop} {m : Prog σ α}

theorem Triple.returned (h : Triple P m Q R) {s s' : σ} {a : α} (hP : P s)
    (hm : m s = .returned a s') : Q a s' := by
  have hs := h s hP
  rwa [hm] at hs

theorem Triple.waiting (h : Triple P m Q R) {s s' : σ} (hP : P s)
    (hm : m s = .waiting s') : R s' := by
  have hs := h s hP
  rwa [hm] at hs

/-- Strengthen the precondition and weaken both postconditions. -/
theorem Triple.mono (h : Triple P m Q R) (hP : ∀ s, P' s → P s)
    (hQ : ∀ a s, Q a s → Q' a s) (hR : ∀ s, R s → R' s) : Triple P' m Q' R' := by
  intro s hs
  cases hm : m s with
  | returned a s' => exact hQ a s' (h.returned (hP s hs) hm)
  | waiting s' => exact hR s' (h.waiting (hP s hs) hm)

theorem triple_pure {a : α} (h : ∀ s, P s → Q a s) : Triple P (pure a) Q R :=
  fun s hs => h s hs

theorem triple_lift {f : σ → α × σ} (h : ∀ s, P s → Q (f s).1 (f s).2) :
    Triple P (lift f) Q R :=
  fun s hs => h s hs

theorem triple_modify {f : σ → σ} {Q : Unit → σ → Prop} (h : ∀ s, P s → Q () (f s)) :
    Triple P (modify f) Q R :=
  fun s hs => h s hs

theorem triple_wait (h : ∀ s, P s → R s) : Triple P (wait : Prog σ α) Q R :=
  fun s hs => h s hs

/-- Sequencing. -/
theorem triple_bind {k : α → Prog σ β} {S : β → σ → Prop} (hm : Triple P m Q R)
    (hk : ∀ a, Triple (Q a) (k a) S R) : Triple P (m >>= k) S R := by
  intro s hs
  cases h : m s with
  | returned a s' =>
      rw [bind_returned h]
      exact hk a s' (hm.returned hs h)
  | waiting s' =>
      rw [bind_waiting h]
      exact hm.waiting hs h

/-- Two starts with the same end. -/
theorem triple_or (h : Triple P m Q R) (h' : Triple P' m Q R) :
    Triple (fun s => P s ∨ P' s) m Q R := by
  rintro s (hs | hs)
  · exact h s hs
  · exact h' s hs

/-- A fact about the start that does not depend on the state. -/
theorem triple_of_fact {c : Prop} (h : c → Triple P m Q R) :
    Triple (fun s => c ∧ P s) m Q R :=
  fun s hs => h hs.1 s hs.2

/-- A start of which only such a fact is known. -/
theorem triple_of_const {c : Prop} (h : c → Triple (fun _ => True) m Q R) :
    Triple (fun _ => c) m Q R :=
  fun s hs => h hs s trivial

/-- The retry loop: a round that asks for another keeps the invariant. -/
theorem triple_retry {again : α → Bool}
    (hm : Triple I m (fun a s => if again a = true then I s else Q a s) R)
    (hR : ∀ s, I s → R s) : ∀ n, Triple I (retry again m n) Q R := by
  intro n
  induction n with
  | zero => exact triple_wait hR
  | succ n ih =>
      refine triple_bind hm fun a => ?_
      split
      · exact ih
      · exact triple_pure fun s hs => hs

/-- The retry loop whose first round starts from somewhere else. -/
theorem triple_retry_first {again : α → Bool}
    (hfirst : Triple P m (fun a s => if again a = true then I s else Q a s) R)
    (hnext : Triple I m (fun a s => if again a = true then I s else Q a s) R)
    (hR : ∀ s, I s → R s) (n : Nat) : Triple P (retry again m (n + 1)) Q R := by
  refine triple_bind hfirst fun a => ?_
  split
  · exact triple_retry hnext hR n
  · exact triple_pure fun s hs => hs

/-! ## Invariants -/

/-- Whatever `m` comes to, it keeps `I`. -/
def Keeps (I : σ → Prop) (m : Prog σ α) : Prop := Triple I m (fun _ s => I s) I

/-- The invariant after a return, with nothing said about waiting. -/
theorem Keeps.returns (h : Keeps I m) : Triple I m (fun _ s => I s) fun _ => True :=
  h.mono (fun _ hs => hs) (fun _ _ hs => hs) fun _ _ => trivial

theorem keeps_pure (a : α) : Keeps I (pure a : Prog σ α) := triple_pure fun _ hs => hs

theorem keeps_lift {f : σ → α × σ} (h : ∀ s, I s → I (f s).2) : Keeps I (lift f) :=
  triple_lift h

theorem keeps_modify {f : σ → σ} (h : ∀ s, I s → I (f s)) : Keeps I (modify f) :=
  triple_modify h

theorem keeps_wait : Keeps I (wait : Prog σ α) := triple_wait fun _ hs => hs

theorem keeps_bind {k : α → Prog σ β} (hm : Keeps I m) (hk : ∀ a, Keeps I (k a)) :
    Keeps I (m >>= k) :=
  triple_bind hm hk

theorem keeps_ite {c : Prop} [Decidable c] {m₁ m₂ : Prog σ α} (h₁ : c → Keeps I m₁)
    (h₂ : ¬ c → Keeps I m₂) : Keeps I (if c then m₁ else m₂) := by
  split
  · exact h₁ ‹_›
  · exact h₂ ‹_›

theorem keeps_and {J : σ → Prop} (hI : Keeps I m) (hJ : Keeps J m) :
    Keeps (fun s => I s ∧ J s) m := by
  intro s hs
  cases hm : m s with
  | returned a s' => exact ⟨hI.returned hs.1 hm, hJ.returned hs.2 hm⟩
  | waiting s' => exact ⟨hI.waiting hs.1 hm, hJ.waiting hs.2 hm⟩

end Prog

end Uiso.Foundation
