/-
  Config/Relocate.lean --- the walk over an array in which later tokens have moved.

  Tokens inserted behind token `m` move every later token and every parent link to one.
  The walk compares parent links with the indices it remembers, and with their successors.
  So it does with the moved tokens what it did with them where they were, provided that it
  does not remember `m` itself: the successor of `m` is a different token now
  (`loadLoop_relocate`).
-/
import Uiso.Config.Sections

set_option autoImplicit false

namespace Uiso.Config

/-! ## Moving -/

/-- Where an index is when `s` tokens have been inserted behind token `m`. -/
def relocate (m s p : Nat) : Nat := if p ≤ m then p else p + s

/-- A node whose parent may have moved. -/
def Node.relocate (m s : Nat) (node : Node) : Node :=
  { node with parent := node.parent.map (Config.relocate m s) }

/-- Locals whose tokens may have moved. -/
def LoadState.relocate (m s : Nat) (st : LoadState) : LoadState where
  wifiKey := st.wifiKey.map (Config.relocate m s)
  lwm2mKey := st.lwm2mKey.map (Config.relocate m s)
  ntpKey := st.ntpKey.map (Config.relocate m s)
  lwm2mPskKey := st.lwm2mPskKey.map (Config.relocate m s)
  ntpUrlKey := st.ntpUrlKey.map (Config.relocate m s)
  ntpUrlArray := st.ntpUrlArray.map (Config.relocate m s)
  config := st.config

section Relocate

variable {m s : Nat}

section Fields

variable (st : LoadState)

@[simp] theorem LoadState.relocate_wifiKey :
    (st.relocate m s).wifiKey = st.wifiKey.map (Config.relocate m s) := rfl
@[simp] theorem LoadState.relocate_lwm2mKey :
    (st.relocate m s).lwm2mKey = st.lwm2mKey.map (Config.relocate m s) := rfl
@[simp] theorem LoadState.relocate_ntpKey :
    (st.relocate m s).ntpKey = st.ntpKey.map (Config.relocate m s) := rfl
@[simp] theorem LoadState.relocate_lwm2mPskKey :
    (st.relocate m s).lwm2mPskKey = st.lwm2mPskKey.map (Config.relocate m s) := rfl
@[simp] theorem LoadState.relocate_ntpUrlKey :
    (st.relocate m s).ntpUrlKey = st.ntpUrlKey.map (Config.relocate m s) := rfl
@[simp] theorem LoadState.relocate_ntpUrlArray :
    (st.relocate m s).ntpUrlArray = st.ntpUrlArray.map (Config.relocate m s) := rfl
@[simp] theorem LoadState.relocate_config : (st.relocate m s).config = st.config := rfl

end Fields

theorem relocate_of_le {p : Nat} (h : p ≤ m) : relocate m s p = p := if_pos h

theorem relocate_of_lt {p : Nat} (h : m < p) : relocate m s p = p + s := if_neg (by omega)

theorem relocate_inj {p q : Nat} : relocate m s p = relocate m s q ↔ p = q := by
  unfold relocate
  split_ifs <;> omega

/-- The successor of an index moves with it, unless the index is the last before the gap. -/
theorem relocate_succ {p q : Nat} (h : p ≠ m) :
    relocate m s p + 1 = relocate m s q ↔ p + 1 = q := by
  unfold relocate
  split_ifs <;> omega

theorem behind_relocate {key parent : Option Nat} (h : key ≠ some m) :
    behind (key.map (relocate m s)) (parent.map (relocate m s)) = behind key parent := by
  cases key with
  | none => rfl
  | some k =>
      cases parent with
      | none => rfl
      | some q =>
          have hk : k ≠ m := fun heq => h (by rw [heq])
          rw [Bool.eq_iff_iff]
          simpa [behind] using relocate_succ hk

theorem atKey_relocate {key parent : Option Nat} :
    atKey (key.map (relocate m s)) (parent.map (relocate m s)) = atKey key parent := by
  cases key with
  | none => rfl
  | some k =>
      cases parent with
      | none => rfl
      | some q =>
          rw [Bool.eq_iff_iff]
          simpa [atKey] using relocate_inj

theorem map_relocate_eq_zero {parent : Option Nat} :
    parent.map (relocate m s) = some 0 ↔ parent = some 0 := by
  cases parent with
  | none => simp
  | some q =>
      simp only [Option.map_some, Option.some.injEq, relocate]
      split_ifs <;> omega

/-! ## One token -/

/-- The walk does not remember token `m` as the key of a section. -/
structure Forgets (m : Nat) (st : LoadState) : Prop where
  wifiKey : st.wifiKey ≠ some m
  lwm2mKey : st.lwm2mKey ≠ some m
  ntpKey : st.ntpKey ≠ some m
  lwm2mPskKey : st.lwm2mPskKey ≠ some m

theorem copyNext_relocate (i j : Nat) (next : Option Node) (dest : Option (Slot × Nat))
    (st : LoadState) :
    (copyNext nodeReader j (next.map (Node.relocate m s)) dest (st.relocate m s)).toOption =
      (copyNext nodeReader i next dest st).toOption.map (LoadState.relocate m s) := by
  cases next with
  | none => rfl
  | some value =>
      cases dest with
      | none => rfl
      | some dest =>
          obtain ⟨slot, len⟩ := dest
          have htype : nodeReader.type (value.relocate m s) = nodeReader.type value := rfl
          have hlength : nodeReader.length (value.relocate m s) = nodeReader.length value := rfl
          have hcopied : nodeReader.copied (value.relocate m s) = nodeReader.copied value := rfl
          simp only [copyNext, Option.map_some, htype, hlength, hcopied, LoadState.relocate_config]
          split
          · generalize strncpyTo slot _ _ st.config = r
            cases r <;> rfl
          · rfl

/-- A token that has moved is treated as it was. -/
theorem loadStep_relocate {i : Nat} (hi : m < i) {st : LoadState} (h : Forgets m st) (t : Node)
    (next : Option Node) :
    (loadStep nodeReader (i + s) (t.relocate m s) (next.map (Node.relocate m s))
        (st.relocate m s)).toOption =
      (loadStep nodeReader i t next st).toOption.map (LoadState.relocate m s) := by
  have hmoved : some (i + s) = (some i).map (relocate m s) := by
    rw [Option.map_some, relocate_of_lt hi]
  have htype : nodeReader.type (t.relocate m s) = nodeReader.type t := rfl
  have hstarts : nodeReader.startsWith (t.relocate m s) = nodeReader.startsWith t := rfl
  have hparent : nodeReader.parent (t.relocate m s) =
      (nodeReader.parent t).map (relocate m s) := rfl
  simp only [loadStep, hparent, htype, hstarts, hmoved, map_relocate_eq_zero,
    LoadState.relocate_wifiKey, LoadState.relocate_lwm2mKey, LoadState.relocate_ntpKey,
    LoadState.relocate_ntpUrlKey, LoadState.relocate_ntpUrlArray, LoadState.relocate_lwm2mPskKey,
    behind_relocate h.wifiKey, behind_relocate h.lwm2mKey, behind_relocate h.ntpKey,
    behind_relocate h.lwm2mPskKey, atKey_relocate]
  split_ifs
  any_goals rfl
  · exact copyNext_relocate i (i + s) next _ st
  · exact copyNext_relocate i (i + s) next _ { st with lwm2mPskKey := some i }
  · exact copyNext_relocate i (i + s) next _ st
  · have hcopy : strncpyTo .ntpUrl (nodeReader.length (t.relocate m s))
        (nodeReader.copied (t.relocate m s) (nodeReader.length (t.relocate m s)))
        (st.relocate m s).config =
      strncpyTo .ntpUrl (nodeReader.length t) (nodeReader.copied t (nodeReader.length t))
        st.config := rfl
    rw [hcopy]
    cases strncpyTo .ntpUrl _ _ st.config <;> rfl
  · exact copyNext_relocate i (i + s) next _ st

/-! ## The walk -/

/-- A token that is no key of a section is never remembered as one. -/
theorem Reflects.forgets {nodes : List Node} {i : Nat} {st : LoadState} (h : Reflects nodes i st)
    (hroot : ¬RootString nodes m) (hpsk : ¬PskKey nodes m) : Forgets m st := by
  have hkey : ∀ {K : Nat → Prop} {key : Option Nat}, IsLatest K i key → ¬K m → key ≠ some m := by
    rintro K key hlatest hm rfl
    exact hm hlatest.2.1
  exact ⟨hkey h.wifiKey fun hk => hroot hk.1, hkey h.lwm2mKey fun hk => hroot hk.1,
    hkey h.ntpKey fun hk => hroot hk.1, hkey h.lwm2mPskKey hpsk⟩

/-- The walk over moved tokens. -/
theorem loadLoop_relocate {nodes : List Node} (hroot : ¬RootString nodes m)
    (hpsk : ¬PskKey nodes m) : ∀ {ts pre : List Node} {st : LoadState}, nodes = pre ++ ts →
      m < pre.length → Reflects nodes pre.length st →
      (loadLoop nodeReader none (pre.length + s) (ts.map (Node.relocate m s))
          (st.relocate m s)).toOption =
        (loadLoop nodeReader none pre.length ts st).toOption.map (LoadState.relocate m s) := by
  intro ts
  induction ts with
  | nil =>
      intro pre st _ _ _
      rfl
  | cons t ts ih =>
      intro pre st hnodes hm hreflects
      have ht : nodes[pre.length]? = some t := by simp [hnodes]
      have hnext' : (ts.map (Node.relocate m s)).head?.or none =
          (ts.head?.or none).map (Node.relocate m s) := by
        cases ts <;> rfl
      have hlength : (pre ++ [t]).length = pre.length + 1 := by simp
      have hstep := loadStep_relocate (s := s) hm (hreflects.forgets hroot hpsk) t
        (ts.head?.or none)
      rw [List.map_cons, loadLoop, loadLoop, hnext']
      cases hold : loadStep nodeReader pre.length t (ts.head?.or none) st with
      | error fault =>
          rw [hold] at hstep
          cases hnew : loadStep nodeReader (pre.length + s) (t.relocate m s)
              ((ts.head?.or none).map (Node.relocate m s)) (st.relocate m s) with
          | error fault' => rfl
          | ok st' =>
              rw [hnew] at hstep
              cases hstep
      | ok st₁ =>
          rw [hold] at hstep
          cases hnew : loadStep nodeReader (pre.length + s) (t.relocate m s)
              ((ts.head?.or none).map (Node.relocate m s)) (st.relocate m s) with
          | error fault' =>
              rw [hnew] at hstep
              cases hstep
          | ok st₁' =>
              rw [hnew] at hstep
              cases hstep
              have hreflects₁ := loadStep_reflects hreflects ht hold
              rw [← hlength] at hreflects₁
              have hrest := ih (show nodes = (pre ++ [t]) ++ ts by simp [hnodes]) (by omega)
                hreflects₁
              rw [hlength, Nat.add_right_comm] at hrest
              exact hrest

end Relocate

end Uiso.Config
