/-
  Mqtt/Topic.lean --- which topics a topic filter selects: `isTopicMatched` of
  src/mqtt/MQTTClient.c and `MQTTPacket_equals` of the Paho library.

  `isTopicMatched` goes through the filter and the name byte by byte.  The standard says
  what a filter matches level by level, where the levels are what stands between the
  separators `/`:

      text         : the levels of a filter and their bytes
      Matches      : the rule of the standard
      Filled       : each wildcard meets a level, and the first one is not empty

  `isTopicMatched` assumes of a filter that wildcards stand alone in their level and that
  `#` is the last one.  For these filters its result is `Matches` and `Filled`.
-/
import Mathlib.Data.List.Basic
import Mathlib.Tactic.Common

set_option autoImplicit false

namespace Uiso.Mqtt

/-! ## The functions -/

/-- `'/'` -/
def slash : UInt8 := 47
/-- `'+'` -/
def plus : UInt8 := 43
/-- `'#'` -/
def hash : UInt8 := 35

/-- The loop of `isTopicMatched`: what is left of the filter and of the name behind it. -/
def matchLoop : List UInt8 → List UInt8 → List UInt8 × List UInt8
  | [], name => ([], name)
  | f :: filter, [] => (f :: filter, [])
  | f :: filter, c :: name =>
      if c = slash ∧ f ≠ slash then (f :: filter, c :: name)
      else if f ≠ plus ∧ f ≠ hash ∧ f ≠ c then (f :: filter, c :: name)
      -- `+` skips to the next separator, `#` to the end.
      else if f = plus then matchLoop filter (name.dropWhile (· ≠ slash))
      else if f = hash then matchLoop filter []
      else matchLoop filter name

/-- `isTopicMatched` -/
def isTopicMatched (topicFilter topicName : List UInt8) : Bool :=
  matchLoop topicFilter topicName = ([], [])

/-- `MQTTPacket_equals`: the filter is a C string, so `strncmp` compares all of it. -/
def mqttPacketEquals (topicName topicFilter : List UInt8) : Bool := topicName = topicFilter

/-- The condition under which `deliverMessage` calls the handler of a filter. -/
def selects (topicName topicFilter : List UInt8) : Bool :=
  mqttPacketEquals topicName topicFilter || isTopicMatched topicFilter topicName

/-! ## Levels -/

/-- A level of a topic filter. -/
inductive Level where
  | literal (bytes : List UInt8)
  | single
  | multi
  deriving DecidableEq, Repr

/-- The bytes of a level. -/
def Level.text : Level → List UInt8
  | .literal bytes => bytes
  | .single => [plus]
  | .multi => [hash]

/-- No separator and no wildcard among the bytes of a level without a wildcard. -/
def Level.Plain : Level → Prop
  | .literal bytes => slash ∉ bytes ∧ plus ∉ bytes ∧ hash ∉ bytes
  | .single => True
  | .multi => True

instance (l : Level) : Decidable l.Plain := by
  cases l <;> unfold Level.Plain <;> infer_instance

/-- A topic filter: wildcards fill their level, and `#` is the last level. -/
structure Filter where
  levels : List Level
  nonempty : levels ≠ []
  plain : ∀ l ∈ levels, l.Plain
  multi_last : .multi ∉ levels.dropLast

/-- Levels, with separators between them. -/
def levelsText (levels : List Level) : List UInt8 := [slash].intercalate (levels.map Level.text)

/-- The bytes of a topic filter. -/
def Filter.text (f : Filter) : List UInt8 := levelsText f.levels

/-- The levels of a topic name. -/
def nameLevels (name : List UInt8) : List (List UInt8) := name.splitOn slash

/-- The rule of the standard: `+` matches one level, and `#` any number of them. -/
def Matches : List Level → List (List UInt8) → Prop
  | [], names => names = []
  | .multi :: _, _ => True
  | .literal _ :: _, [] => False
  | .literal bytes :: levels, name :: names => bytes = name ∧ Matches levels names
  | .single :: _, [] => False
  | .single :: levels, _ :: names => Matches levels names

/-- Each wildcard meets a level, and the first level it meets is not empty. -/
def Filled : List Level → List (List UInt8) → Prop
  | .multi :: _, names => ∃ name rest, names = name :: rest ∧ name ≠ []
  | .single :: levels, name :: names => name ≠ [] ∧ Filled levels names
  | .literal _ :: levels, _ :: names => Filled levels names
  | _, _ => True

/-- The first level of a name stands in front of its first separator. -/
theorem nameLevels_append {front : List UInt8} (hfront : slash ∉ front) (back : List UInt8) :
    nameLevels (front ++ slash :: back) = front :: nameLevels back := by
  have hplain : ∀ c ∈ front, (c == slash) = false := fun c hc =>
    beq_false_of_ne fun h => hfront (h ▸ hc)
  exact List.splitOnP_append_cons_of_forall_mem hplain slash (beq_self_eq_true slash) back

/-- A name is one level, or there are more behind its first one. -/
theorem nameLevels_cases (name : List UInt8) :
    (slash ∉ name ∧ nameLevels name = [name]) ∨ ∃ front back, slash ∉ front ∧
      name = front ++ slash :: back ∧ nameLevels name = front :: nameLevels back := by
  by_cases hmem : slash ∈ name
  · obtain ⟨front, back, rfl, hfront⟩ := List.eq_append_cons_of_mem hmem
    exact .inr ⟨front, back, hfront, rfl, nameLevels_append hfront back⟩
  · have h := @List.splitOn_intercalate _ [name] _ _ slash (by simpa using hmem) (by simp)
    rw [List.intercalate_singleton] at h
    exact .inl ⟨hmem, h⟩

theorem nameLevels_ne_nil (name : List UInt8) : nameLevels name ≠ [] :=
  List.splitOnP_ne_nil _ name

/-! ## One byte, one level -/

/-- Behind the end of the filter, the name must have ended. -/
theorem isTopicMatched_nil (name : List UInt8) : isTopicMatched [] name = true ↔ name = [] := by
  simp [isTopicMatched, matchLoop]

/-- A byte that is no wildcard, be it a separator or not, matches itself. -/
theorem isTopicMatched_byte {b : UInt8} (hplus : b ≠ plus) (hhash : b ≠ hash)
    (filter name : List UInt8) : isTopicMatched (b :: filter) name = true ↔
      ∃ rest, name = b :: rest ∧ isTopicMatched filter rest = true := by
  cases name with
  | nil => simp [isTopicMatched, matchLoop]
  | cons c name =>
      by_cases hc : b = c
      · subst hc
        simp [isTopicMatched, matchLoop, hplus, hhash]
      · have hleft : isTopicMatched (b :: filter) (c :: name) = false := by
          simp only [isTopicMatched, matchLoop]
          split <;> simp [hplus, hhash, hc]
        refine iff_of_false (by simp [hleft]) ?_
        rintro ⟨rest, hname, -⟩
        exact hc (List.cons.inj hname).1.symm

/-- A level without a wildcard is a front part of the name. -/
theorem isTopicMatched_literal {bytes : List UInt8} (hplus : plus ∉ bytes) (hhash : hash ∉ bytes)
    (filter name : List UInt8) : isTopicMatched (bytes ++ filter) name = true ↔
      ∃ rest, name = bytes ++ rest ∧ isTopicMatched filter rest = true := by
  induction bytes generalizing name with
  | nil => simp
  | cons b bytes ih =>
      rw [List.mem_cons, not_or] at hplus hhash
      rw [List.cons_append, isTopicMatched_byte (Ne.symm hplus.1) (Ne.symm hhash.1)]
      constructor
      · rintro ⟨rest, rfl, hrest⟩
        obtain ⟨rest', rfl, hmatch⟩ := (ih hplus.2 hhash.2 rest).mp hrest
        exact ⟨rest', rfl, hmatch⟩
      · rintro ⟨rest, rfl, hmatch⟩
        exact ⟨bytes ++ rest, rfl, (ih hplus.2 hhash.2 _).mpr ⟨rest, rfl, hmatch⟩⟩

/-- `+` takes all of the level it stands at, which is not empty. -/
theorem isTopicMatched_plus (filter : List UInt8) {front back : List UInt8}
    (hfront : slash ∉ front) (hback : back = [] ∨ ∃ rest, back = slash :: rest) :
    isTopicMatched (plus :: filter) (front ++ back) = true ↔
      front ≠ [] ∧ isTopicMatched filter back = true := by
  cases front with
  | nil =>
      refine iff_of_false ?_ (by simp)
      rcases hback with rfl | ⟨rest, rfl⟩ <;>
        simp [isTopicMatched, matchLoop, plus, slash]
  | cons c front =>
      rw [List.mem_cons, not_or] at hfront
      have hc : ¬(c = slash ∧ plus ≠ slash) := fun h => hfront.1 h.1.symm
      have hdrop : (front ++ back).dropWhile (· ≠ slash) = back := by
        have hall : ∀ x ∈ front, decide (x ≠ slash) = true := by
          intro x hx
          exact decide_eq_true fun h => hfront.2 (h ▸ hx)
        rw [List.dropWhile_append_of_pos hall]
        rcases hback with rfl | ⟨rest, rfl⟩ <;> simp
      simp only [List.cons_append, isTopicMatched, matchLoop, if_neg hc, ne_eq, not_true,
        false_and, if_false, if_true, hdrop, List.cons_ne_nil, not_false_iff, true_and]

/-- `#` takes all that is left of the name, which does not begin with a separator. -/
theorem isTopicMatched_hash (name : List UInt8) : isTopicMatched [hash] name = true ↔
    ∃ c rest, name = c :: rest ∧ c ≠ slash := by
  cases name with
  | nil => simp [isTopicMatched, matchLoop]
  | cons c name =>
      by_cases hc : c = slash
      · simp [isTopicMatched, matchLoop, hc, hash, slash]
      · simp [isTopicMatched, matchLoop, hc, hash, plus]

/-! ## Filters -/

theorem levelsText_singleton (l : Level) : levelsText [l] = l.text := List.intercalate_singleton

theorem levelsText_cons {l : Level} {levels : List Level} (h : levels ≠ []) :
    levelsText (l :: levels) = l.text ++ slash :: levelsText levels := by
  rw [levelsText, List.map_cons, List.intercalate_cons_of_ne_nil (by simpa using h)]
  simp [levelsText]

/-- The last level of a filter. -/
theorem isTopicMatched_last {l : Level} (hplain : l.Plain) (name : List UInt8) :
    isTopicMatched l.text name = true ↔
      Matches [l] (nameLevels name) ∧ Filled [l] (nameLevels name) := by
  cases l with
  | literal bytes =>
      have hname := isTopicMatched_literal hplain.2.1 hplain.2.2 [] name
      rw [List.append_nil] at hname
      rw [Level.text, hname]
      simp only [isTopicMatched_nil, exists_eq_right, List.append_nil]
      rcases nameLevels_cases name with ⟨-, hlevels⟩ | ⟨front, back, hfront, rfl, hlevels⟩
      · simp [hlevels, Matches, Filled, eq_comm]
      · rw [hlevels]
        refine iff_of_false ?_ ?_
        · rintro h
          exact hplain.1 (h ▸ by simp)
        · rintro ⟨⟨-, hnil⟩, -⟩
          exact nameLevels_ne_nil back hnil
  | single =>
      rcases nameLevels_cases name with ⟨hslash, hlevels⟩ | ⟨front, back, hfront, rfl, hlevels⟩
      · have hplus := isTopicMatched_plus [] hslash (.inl rfl)
        rw [List.append_nil] at hplus
        rw [Level.text, hplus, hlevels]
        simp [isTopicMatched_nil, Matches, Filled]
      · rw [Level.text, isTopicMatched_plus [] hfront (.inr ⟨back, rfl⟩), hlevels]
        refine iff_of_false (by simp [isTopicMatched_nil]) ?_
        rintro ⟨hnil, -⟩
        exact nameLevels_ne_nil back hnil
  | multi =>
      rw [Level.text, isTopicMatched_hash]
      rcases nameLevels_cases name with ⟨hslash, hlevels⟩ | ⟨front, back, hfront, rfl, hlevels⟩
      · rw [hlevels]
        cases name with
        | nil => simp [Matches, Filled]
        | cons c name =>
            rw [List.mem_cons, not_or] at hslash
            simp [Matches, Filled, Ne.symm hslash.1]
      · rw [hlevels]
        cases front with
        | nil => simp [Matches, Filled]
        | cons c front =>
            rw [List.mem_cons, not_or] at hfront
            simp [Matches, Filled, Ne.symm hfront.1]

/-- A level of a filter in front of others takes one level of the name, up to the separator
behind it. -/
theorem isTopicMatched_level {l : Level} (hplain : l.Plain) (hmulti : l ≠ .multi)
    (filter : List UInt8) {front : List UInt8} (hfront : slash ∉ front) (back : List UInt8) :
    isTopicMatched (l.text ++ slash :: filter) (front ++ slash :: back) = true ↔
      Matches [l] [front] ∧ Filled [l] [front] ∧ isTopicMatched filter back = true := by
  have hsep := isTopicMatched_byte (b := slash) (by decide) (by decide) filter
  cases l with
  | literal bytes =>
      rw [Level.text, isTopicMatched_literal hplain.2.1 hplain.2.2]
      simp only [hsep, Matches, Filled, and_true, true_and]
      constructor
      · rintro ⟨-, hname, rest, rfl, hmatch⟩
        -- The first separator of the name ends both levels.
        have hlevels := congrArg nameLevels hname
        rw [nameLevels_append hfront, nameLevels_append hplain.1] at hlevels
        obtain rfl := (List.cons.inj hlevels).1
        obtain rfl := (List.cons.inj (List.append_cancel_left hname)).2
        exact ⟨rfl, hmatch⟩
      · rintro ⟨rfl, hmatch⟩
        exact ⟨slash :: back, rfl, back, rfl, hmatch⟩
  | single =>
      rw [Level.text, List.singleton_append, isTopicMatched_plus _ hfront (.inr ⟨back, rfl⟩), hsep]
      simp [Matches, Filled]
  | multi => exact absurd rfl hmulti

/-- A name of one level does not reach the separator behind a level of the filter. -/
theorem not_isTopicMatched_level {l : Level} (hplain : l.Plain) (hmulti : l ≠ .multi)
    (filter : List UInt8) {name : List UInt8} (hname : slash ∉ name) :
    ¬isTopicMatched (l.text ++ slash :: filter) name = true := by
  have hsep := isTopicMatched_byte (b := slash) (by decide) (by decide) filter
  cases l with
  | literal bytes =>
      rw [Level.text, isTopicMatched_literal hplain.2.1 hplain.2.2]
      simp only [hsep]
      rintro ⟨-, rfl, rest, rfl, -⟩
      exact hname (by simp)
  | single =>
      have hplus := isTopicMatched_plus (slash :: filter) hname (.inl rfl)
      rw [List.append_nil] at hplus
      rw [Level.text, List.singleton_append, hplus, hsep]
      simp
  | multi => exact absurd rfl hmulti

/-- Level by level, both the standard's rule and what the wildcards meet. -/
theorem matches_filled_cons {l : Level} (hmulti : l ≠ .multi) (levels : List Level)
    (name : List UInt8) (names : List (List UInt8)) :
    Matches (l :: levels) (name :: names) ∧ Filled (l :: levels) (name :: names) ↔
      Matches [l] [name] ∧ Filled [l] [name] ∧ Matches levels names ∧ Filled levels names := by
  cases l with
  | literal bytes => simp [Matches, Filled, and_assoc]
  | single =>
      simp only [Matches, Filled, and_true, true_and]
      tauto
  | multi => exact absurd rfl hmulti

/-- The loop of `isTopicMatched` against the levels, from any level of a filter on. -/
theorem isTopicMatched_levelsText {levels : List Level} (hne : levels ≠ [])
    (hplain : ∀ l ∈ levels, l.Plain) (hlast : .multi ∉ levels.dropLast) (name : List UInt8) :
    isTopicMatched (levelsText levels) name = true ↔
      Matches levels (nameLevels name) ∧ Filled levels (nameLevels name) := by
  induction levels generalizing name with
  | nil => exact absurd rfl hne
  | cons l levels ih =>
      have hl : l.Plain := hplain l List.mem_cons_self
      by_cases hnil : levels = []
      · subst hnil
        rw [levelsText_singleton]
        exact isTopicMatched_last hl name
      · rw [List.dropLast_cons_of_ne_nil hnil, List.mem_cons, not_or] at hlast
        have hmulti : l ≠ .multi := Ne.symm hlast.1
        rw [levelsText_cons hnil]
        rcases nameLevels_cases name with ⟨hslash, hone⟩ | ⟨front, back, hfront, rfl, hmore⟩
        · refine iff_of_false (not_isTopicMatched_level hl hmulti _ hslash) ?_
          rw [hone, matches_filled_cons hmulti]
          rintro ⟨-, -, hmatches, hfilled⟩
          obtain ⟨l', levels, rfl⟩ := List.exists_cons_of_ne_nil hnil
          cases l' <;> simp [Matches, Filled] at hmatches hfilled
        · rw [isTopicMatched_level hl hmulti _ hfront, hmore, matches_filled_cons hmulti,
            ih hnil (fun l' hl' => hplain l' (List.mem_cons_of_mem l hl')) hlast.2 back]

/-! ## A filter as a name -/

theorem slash_not_mem_text {l : Level} (hplain : l.Plain) : slash ∉ l.text := by
  cases l with
  | literal bytes => exact hplain.1
  | single => decide
  | multi => decide

theorem Filter.nameLevels_text (f : Filter) : nameLevels f.text = f.levels.map Level.text := by
  refine List.splitOn_intercalate slash ?_ (by simpa using f.nonempty)
  intro text htext
  obtain ⟨l, hl, rfl⟩ := List.mem_map.mp htext
  exact slash_not_mem_text (f.plain l hl)

theorem matches_map_text (levels : List Level) : Matches levels (levels.map Level.text) := by
  induction levels with
  | nil => rfl
  | cons l levels ih => cases l <;> simp [Matches, Level.text, ih]

theorem filled_map_text (levels : List Level) : Filled levels (levels.map Level.text) := by
  induction levels with
  | nil => trivial
  | cons l levels ih => cases l <;> simp [Filled, Level.text, ih]

/-- A filter selects a name if the standard has it match and if, besides, each of its wildcards
meets a level, of which the first is not empty.  The comparison of the whole name selects
nothing more. -/
theorem filter_selects_iff (f : Filter) (name : List UInt8) : selects name f.text = true ↔
    Matches f.levels (nameLevels name) ∧ Filled f.levels (nameLevels name) := by
  have hloop := isTopicMatched_levelsText f.nonempty f.plain f.multi_last name
  rw [selects, Bool.or_eq_true, Filter.text, hloop, or_iff_right_iff_imp]
  intro hequals
  obtain rfl : name = f.text := of_decide_eq_true hequals
  rw [f.nameLevels_text]
  exact ⟨matches_map_text f.levels, filled_map_text f.levels⟩

-- `a/#` selects `a/b/c`; the standard also has it match `a`.
example : selects [97, 47, 98, 47, 99] [97, 47, 35] = true ∧ selects [97] [97, 47, 35] = false ∧
    Matches [.literal [97], .multi] (nameLevels [97]) :=
  ⟨by decide, by decide, rfl, trivial⟩

end Uiso.Mqtt
