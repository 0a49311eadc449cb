/-
  Foundation/Machine.lean --- labelled machines, their runs, and the two
  induction rules every run result of the development goes through.

  A machine is a partial step function on explicit states.  The label carries
  everything the environment decides in that step, so a run is a list of labels
  and a statement about "every interleaving" is one about every list.

      run s as      : the state after the labels `as`, if every step is enabled
      Guarded G s as: every step of the run meets `G` in the state it is taken in
      Always P s as : `P` holds in every state the run visits, the first included

  `always_of_guarded` is the invariant rule for guarded runs.  `always_iff_guarded`
  is its exact form: when one step keeps `P` precisely if it meets `G`, a whole run
  keeps `P` precisely if all of its steps meet `G`.
-/
import Mathlib.Logic.Basic

set_option autoImplicit false

namespace Uiso.Foundation

/-- A machine: in state `s` the label `a` leads to `step s a`, or is not enabled
there. -/
structure Machine (σ α : Type) where
  step : σ → α → Option σ

namespace Machine

variable {σ α : Type} (M : Machine σ α)

/-- The state after a list of labels; `none` once a label is not enabled. -/
def run : σ → List α → Option σ
  | s, [] => some s
  | s, a :: as =>
      match M.step s a with
      | none => none
      | some s' => run s' as

/-- Every step the run takes meets `G` in the state in which it is taken. -/
def Guarded (G : σ → α → Prop) : σ → List α → Prop
  | _, [] => True
  | s, a :: as =>
      match M.step s a with
      | none => True
      | some s' => G s a ∧ Guarded G s' as

/-- `P` holds in every state the run visits. -/
def Always (P : σ → Prop) : σ → List α → Prop
  | s, [] => P s
  | s, a :: as =>
      match M.step s a with
      | none => P s
      | some s' => P s ∧ Always P s' as

variable {M}

/-- A guard that can be checked step by step can be checked along a run. -/
instance Guarded.decidable {G : σ → α → Prop} [∀ s a, Decidable (G s a)] :
    ∀ (s : σ) (as : List α), Decidable (M.Guarded G s as)
  | _, [] => .isTrue trivial
  | s, a :: as =>
      match hs : M.step s a with
      | none => .isTrue (by simp [Guarded, hs])
      | some s' =>
          have : Decidable (M.Guarded G s' as) := Guarded.decidable s' as
          decidable_of_iff (G s a ∧ M.Guarded G s' as) (by simp [Guarded, hs])

/-- A predicate that can be checked in a state can be checked along a run. -/
instance Always.decidable {P : σ → Prop} [∀ s, Decidable (P s)] :
    ∀ (s : σ) (as : List α), Decidable (M.Always P s as)
  | s, [] => inferInstanceAs (Decidable (P s))
  | s, a :: as =>
      match hs : M.step s a with
      | none => decidable_of_iff (P s) (by simp [Always, hs])
      | some s' =>
          have : Decidable (M.Always P s' as) := Always.decidable s' as
          decidable_of_iff (P s ∧ M.Always P s' as) (by simp [Always, hs])

@[simp] theorem run_nil (s : σ) : M.run s [] = some s := rfl

/-- The first step of a nonempty run that succeeds. -/
theorem run_uncons {s t : σ} {a : α} {as : List α} (h : M.run s (a :: as) = some t) :
    ∃ s', M.step s a = some s' ∧ M.run s' as = some t := by
  cases hstep : M.step s a with
  | none => simp [run, hstep] at h
  | some s' => exact ⟨s', rfl, by simpa [run, hstep] using h⟩

/-- A run of two parts, whether or not the first one succeeds. -/
theorem run_append_bind (s : σ) (as bs : List α) :
    M.run s (as ++ bs) = (M.run s as).bind fun t => M.run t bs := by
  induction as generalizing s with
  | nil => rfl
  | cons a as ih =>
      cases hstep : M.step s a with
      | none => simp [run, hstep]
      | some s' => simpa [run, hstep] using ih s'

/-- A run continues where its first part ended. -/
theorem run_append {s t : σ} {as bs : List α} (h : M.run s as = some t) :
    M.run s (as ++ bs) = M.run t bs := by
  rw [run_append_bind, h, Option.bind_some]

theorem guarded_cons {G : σ → α → Prop} {s s' : σ} {a : α} (as : List α)
    (h : M.step s a = some s') :
    M.Guarded G s (a :: as) ↔ G s a ∧ M.Guarded G s' as := by
  simp [Guarded, h]

/-- The guard of the step behind a run. -/
theorem Guarded.last {G : σ → α → Prop} {as : List α} {s t t' : σ} {a : α}
    (h : M.Guarded G s (as ++ [a])) (hrun : M.run s as = some t) (hstep : M.step t a = some t') :
    G t a := by
  induction as generalizing s with
  | nil =>
      obtain rfl : s = t := by simpa using hrun
      exact ((guarded_cons [] hstep).mp h).1
  | cons b as ih =>
      obtain ⟨s', hfirst, hrest⟩ := run_uncons hrun
      exact ih ((guarded_cons (as ++ [a]) hfirst).mp h).2 hrest

theorem always_cons {P : σ → Prop} {s s' : σ} {a : α} (as : List α)
    (h : M.step s a = some s') :
    M.Always P s (a :: as) ↔ P s ∧ M.Always P s' as := by
  simp [Always, h]

/-- When every step keeps `J`, guards that agree on the steps taken where `J` holds agree
along every run. -/
theorem guarded_iff_of_kept {G G' : σ → α → Prop} {J : σ → Prop}
    (hJ : ∀ s a s', J s → M.step s a = some s' → J s')
    (h : ∀ s a s', J s → M.step s a = some s' → (G s a ↔ G' s a)) :
    ∀ {as : List α} {s : σ}, J s → (M.Guarded G s as ↔ M.Guarded G' s as) := by
  intro as
  induction as with
  | nil =>
      intro s _
      exact Iff.rfl
  | cons a as ih =>
      intro s hs
      cases hstep : M.step s a with
      | none => simp [Guarded, hstep]
      | some s' =>
          rw [guarded_cons as hstep, guarded_cons as hstep, h s a s' hs hstep,
            ih (hJ s a s' hs hstep)]

/-- Guards that agree in every state agree along every run. -/
theorem guarded_iff {G G' : σ → α → Prop} (h : ∀ s a, G s a ↔ G' s a) {as : List α} {s : σ} :
    M.Guarded G s as ↔ M.Guarded G' s as :=
  guarded_iff_of_kept (J := fun _ => True) (fun _ _ _ _ _ => trivial) (fun s a _ _ _ => h s a)
    trivial

/-- A predicate that holds of every visited state holds of the first one. -/
theorem Always.first {P : σ → Prop} {as : List α} {s : σ} (h : M.Always P s as) : P s := by
  cases as with
  | nil => exact h
  | cons a as =>
      cases hstep : M.step s a with
      | none => simpa [Always, hstep] using h
      | some s' => exact ((always_cons as hstep).mp h).1

/-- A predicate that holds of every visited state holds of the last one. -/
theorem Always.last {P : σ → Prop} : ∀ {as : List α} {s t : σ},
    M.Always P s as → M.run s as = some t → P t := by
  intro as
  induction as with
  | nil =>
      intro s t halways hrun
      have hst : s = t := by simpa using hrun
      exact hst ▸ halways
  | cons a as ih =>
      intro s t halways hrun
      obtain ⟨s', hstep, hrest⟩ := run_uncons hrun
      exact ih ((always_cons as hstep).mp halways).2 hrest

/-- The invariant rule for every state a guarded run visits. -/
theorem always_of_guarded {G : σ → α → Prop} {I P : σ → Prop}
    (hstep : ∀ s a s', I s → G s a → M.step s a = some s' → I s')
    (hP : ∀ s, I s → P s) :
    ∀ {as : List α} {s : σ}, I s → M.Guarded G s as → M.Always P s as := by
  intro as
  induction as with
  | nil =>
      intro s hs _
      exact hP s hs
  | cons a as ih =>
      intro s hs hguard
      cases hs' : M.step s a with
      | none => simpa [Always, hs'] using hP s hs
      | some s' =>
          obtain ⟨hG, hguard'⟩ := (guarded_cons as hs').mp hguard
          exact (always_cons as hs').mpr ⟨hP s hs, ih (hstep s a s' hs hG hs') hguard'⟩

/-- The invariant rule without a guard. -/
theorem always_of_invariant {I P : σ → Prop}
    (hstep : ∀ s a s', I s → M.step s a = some s' → I s') (hP : ∀ s, I s → P s)
    {as : List α} {s : σ} (hs : I s) : M.Always P s as := by
  refine always_of_guarded (G := fun _ _ => True) (fun s a s' h _ => hstep s a s' h) hP hs ?_
  clear hs
  induction as generalizing s with
  | nil => exact trivial
  | cons a as ih =>
      cases h : M.step s a with
      | none => simp [Guarded, h]
      | some s' => exact (guarded_cons as h).mpr ⟨trivial, ih⟩

/-- When every step of `M` is, seen through `f`, a step of `N`, every run of `M` is a run
of `N`. -/
theorem run_project {τ β : Type} {N : Machine τ β} {f : σ → τ}
    (hstep : ∀ s a s', M.step s a = some s' → ∃ b, N.step (f s) b = some (f s')) :
    ∀ {as : List α} {s t : σ}, M.run s as = some t → ∃ bs, N.run (f s) bs = some (f t) := by
  intro as
  induction as with
  | nil =>
      intro s t hrun
      have hst : s = t := by simpa using hrun
      exact ⟨[], by rw [run_nil, hst]⟩
  | cons a as ih =>
      intro s t hrun
      obtain ⟨s', hs, hrest⟩ := run_uncons hrun
      obtain ⟨b, hb⟩ := hstep s a s' hs
      obtain ⟨bs, hbs⟩ := ih hrest
      exact ⟨b :: bs, by simp [run, hb, hbs]⟩

/-- The exact rule.  `J` is what every step keeps whether or not it meets the
guard; under `J`, one step keeps `P` precisely if it meets `G`. -/
theorem always_iff_guarded {G : σ → α → Prop} {J P : σ → Prop}
    (hJ : ∀ s a s', J s → M.step s a = some s' → J s')
    (hstep : ∀ s a s', J s → P s → M.step s a = some s' → (P s' ↔ G s a)) :
    ∀ {as : List α} {s : σ}, J s → P s → (M.Always P s as ↔ M.Guarded G s as) := by
  intro as
  induction as with
  | nil =>
      intro s _ hP
      exact ⟨fun _ => trivial, fun _ => hP⟩
  | cons a as ih =>
      intro s hJs hP
      cases hs : M.step s a with
      | none => simp [Always, Guarded, hs, hP]
      | some s' =>
          have hiff := hstep s a s' hJs hP hs
          rw [always_cons as hs, guarded_cons as hs]
          constructor
          · rintro ⟨_, halways⟩
            have hP' : P s' := halways.first
            exact ⟨hiff.mp hP', (ih (hJ s a s' hJs hs) hP').mp halways⟩
          · rintro ⟨hG, hguard⟩
            have hP' : P s' := hiff.mpr hG
            exact ⟨hP, (ih (hJ s a s' hJs hs) hP').mpr hguard⟩

end Machine

end Uiso.Foundation
