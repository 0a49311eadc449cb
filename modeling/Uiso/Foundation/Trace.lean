/-
  Foundation/Trace.lean --- properties of a trace, read event by event.

  A trace grows at its end.  `latest` is the last value some of its events
  carry; `Each` says of every event what may be said of it given the events
  before it.  Both have a rule for the last event, which is the form an
  invariant of a growing trace needs; `foldl_component` reads the state that a
  trace of overwrites leads to off its latest values.
-/
import Mathlib.Logic.Basic

set_option autoImplicit false

namespace Uiso.Foundation

namespace Trace

variable {ε β : Type}

/-- The value carried by the last event that carries one. -/
def latest (f : ε → Option β) (t : List ε) : Option β :=
  t.foldl (fun last e => (f e).or last) none

@[simp] theorem latest_nil (f : ε → Option β) : latest f [] = none := rfl

@[simp] theorem latest_concat (f : ε → Option β) (t : List ε) (e : ε) :
    latest f (t ++ [e]) = (f e).or (latest f t) := by
  simp [latest]

theorem foldl_or_eq (f : ε → Option β) (t : List ε) (last : Option β) :
    t.foldl (fun last e => (f e).or last) last = (latest f t).or last := by
  induction t generalizing last with
  | nil => rfl
  | cons e t ih =>
      have hfirst := ih (f e)
      rw [latest, List.foldl_cons, List.foldl_cons, Option.or_none, ih, hfirst,
        Option.or_assoc]

theorem latest_cons (f : ε → Option β) (e : ε) (t : List ε) :
    latest f (e :: t) = (latest f t).or (f e) := by
  simpa [latest] using foldl_or_eq f t (f e)

/-- Nothing is carried by a trace none of whose events carries anything. -/
theorem latest_eq_none_iff {f : ε → Option β} {t : List ε} :
    latest f t = none ↔ ∀ e ∈ t, f e = none := by
  induction t with
  | nil => simp
  | cons e t ih => simp [latest_cons, ih, and_comm]

/-- The last value is carried by some event. -/
theorem exists_of_latest {f : ε → Option β} {t : List ε} {b : β} (h : latest f t = some b) :
    ∃ e ∈ t, f e = some b := by
  induction t with
  | nil => cases h
  | cons e t ih =>
      rw [latest_cons, Option.or_eq_some_iff] at h
      rcases h with h | ⟨_, h⟩
      · obtain ⟨e', he', hb⟩ := ih h
        exact ⟨e', List.mem_cons_of_mem e he', hb⟩
      · exact ⟨e, List.mem_cons_self, h⟩

/-- A value that every carrying event carries is the last one. -/
theorem latest_eq_of_forall {f : ε → Option β} {t : List ε} {e : ε} {b : β} (he : e ∈ t)
    (hb : f e = some b) (h : ∀ e' ∈ t, ∀ b', f e' = some b' → b' = b) :
    latest f t = some b := by
  cases hlatest : latest f t with
  | none =>
      have hnone := latest_eq_none_iff.mp hlatest e he
      rw [hb] at hnone
      cases hnone
  | some b' =>
      obtain ⟨e', he', hb'⟩ := exists_of_latest hlatest
      rw [h e' he' b' hb']

/-- A component that each event either overwrites or leaves holds, after all of them, the
last value written. -/
theorem foldl_component {σ : Type} (get : σ → β) {f : ε → Option β} {step : σ → ε → σ}
    (hstep : ∀ s e, get (step s e) = (f e).getD (get s)) (t : List ε) (s : σ) :
    get (t.foldl step s) = (latest f t).getD (get s) := by
  induction t generalizing s with
  | nil => rfl
  | cons e t ih => rw [List.foldl_cons, ih, hstep, latest_cons, Option.getD_or]

/-- `Φ` holds of every event of `t` and the events before it, `before` being
those before `t`. -/
def EachFrom (Φ : List ε → ε → Prop) : List ε → List ε → Prop
  | _, [] => True
  | before, e :: t => Φ before e ∧ EachFrom Φ (before ++ [e]) t

/-- `Φ` holds of every event and the events before it. -/
def Each (Φ : List ε → ε → Prop) (t : List ε) : Prop := EachFrom Φ [] t

instance EachFrom.decidable {Φ : List ε → ε → Prop} [∀ t e, Decidable (Φ t e)] :
    ∀ before t, Decidable (EachFrom Φ before t)
  | _, [] => .isTrue trivial
  | before, e :: t =>
      have : Decidable (EachFrom Φ (before ++ [e]) t) := EachFrom.decidable (before ++ [e]) t
      inferInstanceAs (Decidable (Φ before e ∧ _))

instance {Φ : List ε → ε → Prop} [∀ t e, Decidable (Φ t e)] (t : List ε) :
    Decidable (Each Φ t) :=
  inferInstanceAs (Decidable (EachFrom Φ [] t))

theorem eachFrom_concat {Φ : List ε → ε → Prop} (e : ε) :
    ∀ t before, EachFrom Φ before (t ++ [e]) ↔ EachFrom Φ before t ∧ Φ (before ++ t) e := by
  intro t
  induction t with
  | nil =>
      intro before
      simp [EachFrom]
  | cons e' t ih =>
      intro before
      simp only [List.cons_append, EachFrom]
      rw [ih, List.append_assoc, List.singleton_append, and_assoc]

/-- The rule for the last event. -/
@[simp] theorem each_concat {Φ : List ε → ε → Prop} (t : List ε) (e : ε) :
    Each Φ (t ++ [e]) ↔ Each Φ t ∧ Φ t e := by
  simpa [Each] using eachFrom_concat (Φ := Φ) e t []

end Trace

end Uiso.Foundation
