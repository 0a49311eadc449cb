/-
  Config/Values.lean --- what a document makes of the buffers.

  A document says at most one value for each of the five paths `wifi.ssid`, `wifi.key`,
  `lwm2m.uri`, `lwm2m.psk.id` and `lwm2m.psk.key`, and the loader is to leave it in the
  path's buffer, and nothing in the buffers of the other paths.  For documents that keep to
  what the loader can read (`Conforming`) it does so, with one exception: the elements of an
  array below `ntp` are copied without a bound, and their key is recognised by its first
  three characters only.

  The sections of the walk (`InWifi`, ..) are found in the document's tree with the help of
  `Rooted`: a token of the `wifi` section is the key of a member of the value of a root
  member whose key starts with `wifi`.
-/
import Uiso.Config.Contents
import Uiso.Config.Document
import Uiso.Config.Tokenize

set_option autoImplicit false

namespace Uiso.Config

open Uiso.Foundation

/-! ## Paths -/

/-- The members of a value that is an object. -/
def Value.members : Value → Members
  | .object members => members
  | _ => .nil

/-- The elements of a value that is an array. -/
def Value.elements : Value → Elements
  | .array elements => elements
  | _ => .nil

/-- The values at a path, each with the index of its node; the value itself is node `o`. -/
def Value.places : List Name → Nat → Value → List (Nat × Value)
  | [], o, v => [(o, v)]
  | name :: path, o, v => (v.members.entries (o + 1)).flatMap fun entry =>
      if entry.2.1 = name.chars then Value.places path (entry.1 + 1) entry.2.2 else []

/-- The values a document has at a path. -/
def Members.valuesAt (ms : Members) (path : List Name) : List Value :=
  (Value.places path 0 (.object ms)).map Prod.snd

/-- The string a document has at the path of a buffer, if it has one. -/
def Members.configured (ms : Members) (slot : Slot) : List UInt8 :=
  match ms.valuesAt slot.path with
  | .string raw :: _ => raw
  | _ => []

/-- The levels of a document at which keys are recognised, and the names there, without the
level of `ntp`. -/
def levels : List (List Name × List Name) :=
  [([], [.wifi, .lwm2m, .ntp]), ([.wifi], [.ssid, .key]), ([.lwm2m], [.uri, .psk]),
    ([.lwm2m, .psk], [.id, .key])]

/-- A document the loader is made for. -/
structure Conforming (ms : Members) : Prop where
  /-- no path occurs twice -/
  once : ∀ slot : Slot, slot ≠ .ntpUrl → (ms.valuesAt slot.path).length ≤ 1
  /-- the sections are objects -/
  objects : ∀ path ∈ [[Name.wifi], [Name.lwm2m], [Name.lwm2m, Name.psk]],
    ∀ v ∈ ms.valuesAt path, v.type = .object
  /-- no key merely starts with a name -/
  exact_keys : ∀ level ∈ levels, ∀ v ∈ ms.valuesAt level.1, ∀ member ∈ v.members.toList,
    ∀ name ∈ level.2, name.chars <+: member.1 → member.1 = name.chars
  /-- the values are strings that are shorter than their buffers -/
  short : ∀ slot : Slot, slot ≠ .ntpUrl → ∀ v ∈ ms.valuesAt slot.path,
    v.type = .string ∧ v.text.length < slot.capacity
  /-- the NTP servers are shorter than their buffer -/
  urls : ∀ v ∈ ms.valuesAt Slot.ntpUrl.path, ∀ w ∈ v.elements.toList, w.type = .string →
    w.text.length < Slot.ntpUrl.capacity

/-- The strings in arrays below `ntp` whose key starts with `url`. -/
def Members.urlStrings (ms : Members) : List (List UInt8) :=
  (ms.valuesAt [.ntp]).flatMap fun v => v.members.toList.flatMap fun member =>
    if Name.url.chars.isPrefixOf member.1 then
      member.2.elements.toList.filterMap fun
        | .string raw => some raw
        | _ => none
    else []

theorem mem_places_cons {name : Name} {path : List Name} {o i : Nat} {v w : Value} :
    (i, w) ∈ Value.places (name :: path) o v ↔
      ∃ k u, (k, name.chars, u) ∈ v.members.entries (o + 1) ∧
        (i, w) ∈ Value.places path (k + 1) u := by
  simp only [Value.places, List.mem_flatMap, Prod.exists]
  constructor
  · rintro ⟨k, key, u, hentry, hplace⟩
    split_ifs at hplace with hkey
    · exact ⟨k, u, hkey ▸ hentry, hplace⟩
    · cases hplace
  · rintro ⟨k, u, hentry, hplace⟩
    exact ⟨k, name.chars, u, hentry, by simpa using hplace⟩

section Sections

variable {ms : Members} {i j : Nat}

/-- A value is rooted where the path says. -/
theorem Rooted.place {nodes : List Node} : ∀ {path : List Name} {o : Nat} {v w : Value},
    Rooted nodes o v → (i, w) ∈ Value.places path o v → Rooted nodes i w := by
  intro path
  induction path with
  | nil =>
      intro o v w h hplace
      cases List.mem_singleton.mp hplace
      exact h
  | cons name path ih =>
      intro o v w h hplace
      obtain ⟨k, u, hentry, hplace'⟩ := mem_places_cons.mp hplace
      cases v with
      | object members => exact ih (h.member hentry) hplace'
      | string | primitive | array => cases hentry

/-! ## The root -/

theorem rootString_iff :
    RootString (documentNodes ms) i ↔ ∃ key v, (i, key, v) ∈ ms.entries 1 := by
  have hroot := rooted_document ms
  constructor
  · rintro ⟨hparent, _⟩
    exact hroot.child_object.mp hparent
  · rintro ⟨key, v, hentry⟩
    exact ⟨hroot.child_object.mpr ⟨key, v, hentry⟩,
      (stringAt_of_getElem? (hroot.key hentry)).mpr rfl⟩

theorem textAt_of_getElem? {nodes : List Node} {node : Node} (h : nodes[i]? = some node) :
    textAt nodes i = node.text := by
  simp [textAt, h]

theorem rootKey_iff {name : Name} :
    RootKey (documentNodes ms) name i ↔
      ∃ key v, (i, key, v) ∈ ms.entries 1 ∧ name.chars <+: key := by
  have hroot := rooted_document ms
  constructor
  · rintro ⟨hstring, hstarts⟩
    obtain ⟨key, v, hentry⟩ := rootString_iff.mp hstring
    rw [Starts, textAt_of_getElem? (hroot.key hentry)] at hstarts
    exact ⟨key, v, hentry, hstarts⟩
  · rintro ⟨key, v, hentry, hstarts⟩
    refine ⟨rootString_iff.mpr ⟨key, v, hentry⟩, ?_⟩
    rw [Starts, textAt_of_getElem? (hroot.key hentry)]
    exact hstarts

/-- No root key stands between a root key and a node in its range. -/
theorem not_rootString_between {key : List UInt8} {v : Value} {k : Nat}
    (hentry : (j, key, v) ∈ ms.entries 1) (hjk : j < k) (hkj : k < j + 1 + v.size) :
    ¬RootString (documentNodes ms) k := by
  intro hk
  obtain ⟨key', v', hentry'⟩ := rootString_iff.mp hk
  have heq := layout_unique memberSize_pos hentry hentry' (Nat.le_of_lt hjk)
    (by rw [memberSize_mk]; omega)
  cases heq
  omega

/-- A node hangs right behind the last root key of a name precisely if it hangs below the
value of such a key. -/
theorem behind_rootKey_iff {name : Name} :
    Behind (documentNodes ms) (RootKey (documentNodes ms) name) i ↔
      ∃ j key v, (j, key, v) ∈ ms.entries 1 ∧ name.chars <+: key ∧
        parentAt (documentNodes ms) i = some (j + 1) := by
  constructor
  · rintro ⟨j, ⟨_, hkey, _⟩, hparent⟩
    obtain ⟨key, v, hentry, hstarts⟩ := rootKey_iff.mp hkey
    exact ⟨j, key, v, hentry, hstarts, hparent⟩
  · rintro ⟨j, key, v, hentry, hstarts, hparent⟩
    have hpos := v.size_pos
    have hrooted := (rooted_document ms).member hentry
    obtain ⟨hlow, hhigh⟩ := hrooted.inside i (j + 1) hparent (Nat.le_refl _) (by omega)
    refine ⟨j, ⟨by omega, rootKey_iff.mpr ⟨key, v, hentry, hstarts⟩, ?_⟩, hparent⟩
    intro k hjk hki hk
    exact not_rootString_between hentry hjk (by omega) hk.1

/-- In the range of a root member, what hangs behind a root key hangs below the member's
value. -/
theorem parent_of_behind {key : List UInt8} {v : Value} {name : Name}
    (hentry : (j, key, v) ∈ ms.entries 1) (hlow : j + 1 < i) (hhigh : i < j + 1 + v.size)
    (h : Behind (documentNodes ms) (RootKey (documentNodes ms) name) i) :
    parentAt (documentNodes ms) i = some (j + 1) := by
  obtain ⟨k, ⟨hki, hk, _⟩, hparent⟩ := h
  have hrooted := (rooted_document ms).member hentry
  rcases Value.branch hrooted.span i (by omega) (by omega) with ⟨heq, _⟩ | ⟨_, q, hparent', hq, _⟩
  · omega
  · rw [hparent] at hparent'
    cases hparent'
    rcases Nat.eq_or_lt_of_le hq with heq | hlt
    · rw [hparent, heq]
    · exact absurd hk.1 (not_rootString_between hentry (by omega) (by omega))

/-! ## The sections of a conforming document -/

/-- Node `i` is the key of a member of an object at the path. -/
def MemberAt (ms : Members) (path : List Name) (i : Nat) (key : List UInt8) (v : Value) : Prop :=
  ∃ o members, (o, .object members) ∈ Value.places path 0 (.object ms) ∧
    (i, key, v) ∈ members.entries (o + 1)

theorem MemberAt.node {path : List Name} {key : List UInt8} {v : Value}
    (h : MemberAt ms path i key v) :
    ∃ o, (documentNodes ms)[i]? = some ⟨.string, some o, key⟩ := by
  obtain ⟨o, members, hplace, hentry⟩ := h
  exact ⟨o, ((rooted_document ms).place hplace).key hentry⟩

theorem MemberAt.rooted {path : List Name} {key : List UInt8} {v : Value}
    (h : MemberAt ms path i key v) : Rooted (documentNodes ms) (i + 1) v := by
  obtain ⟨o, members, hplace, hentry⟩ := h
  exact ((rooted_document ms).place hplace).member hentry

theorem MemberAt.stringAt {path : List Name} {key : List UInt8} {v : Value}
    (h : MemberAt ms path i key v) : StringAt (documentNodes ms) i := by
  obtain ⟨o, hnode⟩ := h.node
  exact (stringAt_of_getElem? hnode).mpr rfl

theorem MemberAt.starts_iff {path : List Name} {key : List UInt8} {v : Value}
    (h : MemberAt ms path i key v) (name : Name) :
    Starts (documentNodes ms) name i ↔ name.chars <+: key := by
  obtain ⟨o, hnode⟩ := h.node
  rw [Starts, textAt_of_getElem? hnode]

/-- The values at a path that goes on with a name are those of the members with that key. -/
theorem mem_places_concat {name : Name} {w : Value} : ∀ {path : List Name} {o : Nat} {v : Value},
    (i, w) ∈ Value.places (path ++ [name]) o v ↔
      ∃ k p members, i = k + 1 ∧ (p, .object members) ∈ Value.places path o v ∧
        (k, name.chars, w) ∈ members.entries (p + 1) := by
  intro path
  induction path with
  | nil =>
      intro o v
      rw [List.nil_append, mem_places_cons]
      constructor
      · rintro ⟨k, u, hentry, hplace⟩
        cases List.mem_singleton.mp hplace
        cases v with
        | object members => exact ⟨k, o, members, rfl, List.mem_singleton_self _, hentry⟩
        | string | primitive | array => cases hentry
      · rintro ⟨k, p, members, rfl, hplace, hentry⟩
        cases List.mem_singleton.mp hplace
        exact ⟨k, w, hentry, List.mem_singleton_self _⟩
  | cons first path ih =>
      intro o v
      rw [List.cons_append, mem_places_cons]
      constructor
      · rintro ⟨k, u, hentry, hplace⟩
        obtain ⟨k', p, members, hi, hplace', hentry'⟩ := ih.mp hplace
        exact ⟨k', p, members, hi, mem_places_cons.mpr ⟨k, u, hentry, hplace'⟩, hentry'⟩
      · rintro ⟨k', p, members, hi, hplace, hentry'⟩
        obtain ⟨k, u, hentry, hplace'⟩ := mem_places_cons.mp hplace
        exact ⟨k, u, hentry, ih.mpr ⟨k', p, members, hi, hplace', hentry'⟩⟩

theorem memberAt_iff_place {path : List Name} {name : Name} {v : Value} :
    MemberAt ms path i name.chars v ↔
      (i + 1, v) ∈ Value.places (path ++ [name]) 0 (.object ms) := by
  rw [mem_places_concat]
  constructor
  · rintro ⟨o, members, hplace, hentry⟩
    exact ⟨i, o, members, rfl, hplace, hentry⟩
  · rintro ⟨k, o, members, hi, hplace, hentry⟩
    cases hi
    exact ⟨o, members, hplace, hentry⟩

theorem mem_valuesAt {path : List Name} {v : Value} :
    v ∈ ms.valuesAt path ↔ ∃ o, (o, v) ∈ Value.places path 0 (.object ms) := by
  simp [Members.valuesAt]

/-- A key of a section that starts with one of its names is that name. -/
theorem Conforming.exact_key (h : Conforming ms) {path : List Name} {name : Name}
    (hname : ∃ level ∈ levels, level.1 = path ∧ name ∈ level.2) {key : List UInt8} {v : Value}
    (hmember : MemberAt ms path i key v) (hstarts : name.chars <+: key) : key = name.chars := by
  obtain ⟨level, hlevel, rfl, hname⟩ := hname
  obtain ⟨o, members, hplace, hentry⟩ := hmember
  exact h.exact_keys level hlevel _ (mem_valuesAt.mpr ⟨o, hplace⟩) (key, v)
    ((mem_layout members.toList (o + 1)).mpr ⟨i, hentry⟩) name hname hstarts

theorem memberAt_root {key : List UInt8} {v : Value} :
    MemberAt ms [] i key v ↔ (i, key, v) ∈ ms.entries 1 := by
  constructor
  · rintro ⟨o, members, hplace, hentry⟩
    cases List.mem_singleton.mp hplace
    exact hentry
  · intro hentry
    exact ⟨0, ms, List.mem_singleton_self _, hentry⟩

/-- A section that is the value of a root member. -/
theorem Conforming.section_iff (h : Conforming ms) {name : Name}
    (hname : name ∈ [Name.wifi, Name.lwm2m]) :
    Behind (documentNodes ms) (RootKey (documentNodes ms) name) i ∧
        StringAt (documentNodes ms) i ↔
      ∃ key v, MemberAt ms [name] i key v := by
  have hroot : ∃ level ∈ levels, level.1 = [] ∧ name ∈ level.2 := by
    revert hname
    cases name <;> decide
  have hpath : [name] ∈ [[Name.wifi], [Name.lwm2m], [Name.lwm2m, Name.psk]] := by
    revert hname
    cases name <;> decide
  rw [behind_rootKey_iff]
  constructor
  · rintro ⟨⟨j, key, v, hentry, hstarts, hparent⟩, _⟩
    have hmember := memberAt_root.mpr hentry
    obtain rfl := h.exact_key hroot hmember hstarts
    have hplace := memberAt_iff_place.mp hmember
    have htype := h.objects _ hpath v (mem_valuesAt.mpr ⟨_, hplace⟩)
    cases v with
    | object members =>
        obtain ⟨key', v', hentry'⟩ := hmember.rooted.child_object.mp hparent
        exact ⟨key', v', j + 1, members, hplace, hentry'⟩
    | string | primitive | array => cases htype
  · rintro ⟨key, v, hmember⟩
    refine ⟨?_, hmember.stringAt⟩
    obtain ⟨o, members, hplace, hentry⟩ := hmember
    obtain ⟨j, u, hentry', hplace'⟩ := mem_places_cons.mp hplace
    cases List.mem_singleton.mp hplace'
    refine ⟨j, name.chars, _, hentry', List.prefix_rfl, ?_⟩
    exact ((rooted_document ms).member hentry').child_object.mpr ⟨key, v, hentry⟩

theorem Conforming.inWifi_iff (h : Conforming ms) :
    InWifi (documentNodes ms) i ↔ ∃ key v, MemberAt ms [.wifi] i key v :=
  h.section_iff (by decide)

theorem Conforming.inLwm2m_iff (h : Conforming ms) :
    InLwm2m (documentNodes ms) i ↔ ∃ key v, MemberAt ms [.lwm2m] i key v :=
  h.section_iff (by decide)

/-- A member of a root member's value lies in the range of that member. -/
theorem MemberAt.in_root {name : Name} {key : List UInt8} {v : Value}
    (h : MemberAt ms [name] i key v) :
    ∃ j u, (j, name.chars, u) ∈ ms.entries 1 ∧ parentAt (documentNodes ms) i = some (j + 1) ∧
      j + 1 < i ∧ i + 1 + v.size ≤ j + 1 + u.size := by
  obtain ⟨o, members, hplace, hentry⟩ := h
  obtain ⟨j, u, hentry', hplace'⟩ := mem_places_cons.mp hplace
  cases List.mem_singleton.mp hplace'
  have hparent := ((rooted_document ms).member hentry').child_object.mpr ⟨key, v, hentry⟩
  obtain ⟨hlow, hhigh⟩ := layout_range hentry
  rw [memberSize_mk, Members.extent_toList] at hhigh
  refine ⟨j, _, hentry', hparent, by omega, ?_⟩
  simp only [Value.size]
  omega

theorem MemberAt.not_root {name : Name} {key : List UInt8} {v : Value}
    (h : MemberAt ms [name] i key v) : ¬RootString (documentNodes ms) i := by
  obtain ⟨j, u, hentry, hparent, hlow, hhigh⟩ := h.in_root
  exact not_rootString_between hentry (by omega) (by omega)

/-- Nothing in the range of such a member hangs behind a root key, apart from its key. -/
theorem MemberAt.not_behind_inside {name name' : Name} {key : List UInt8} {v : Value} {k : Nat}
    (h : MemberAt ms [name] k key v) (hlow : k < i) (hhigh : i < k + 1 + v.size) :
    ¬Behind (documentNodes ms) (RootKey (documentNodes ms) name') i := by
  intro hbehind
  obtain ⟨j, u, hentry, _, hjk, hend⟩ := h.in_root
  have hparent := parent_of_behind hentry (by omega) (by omega) hbehind
  have hfirst : parentAt (documentNodes ms) (k + 1) = some k := by
    obtain ⟨o, members, hplace, hentry'⟩ := h
    exact (((rooted_document ms).place hplace).child_key hentry').mpr rfl
  rcases Value.branch h.rooted.span i hlow hhigh with ⟨rfl, _⟩ | ⟨_, q, hparent', hq, _⟩
  · rw [hfirst] at hparent
    cases hparent
    omega
  · rw [hparent] at hparent'
    cases hparent'
    omega

/-- What hangs right behind a key that is no root key is in none of the first sections. -/
theorem not_claimed_of_parent {k : Nat} (hk : ¬RootString (documentNodes ms) k)
    (hparent : parentAt (documentNodes ms) i = some (k + 1)) : ¬Claimed (documentNodes ms) i := by
  have hbehind : ∀ name, ¬Behind (documentNodes ms) (RootKey (documentNodes ms) name) i := by
    rintro name ⟨j, ⟨_, hkey, _⟩, hparent'⟩
    rw [hparent] at hparent'
    cases hparent'
    exact hk hkey.1
  rintro (⟨hroot, _⟩ | hsection | hsection | hsection)
  · rw [hparent] at hroot
    cases hroot
  all_goals exact hbehind _ hsection.1

/-- The array of a URL key. -/
theorem Conforming.urlArray_iff (h : Conforming ms) :
    UrlArray (documentNodes ms) i ↔
      ∃ k key es, MemberAt ms [.ntp] k key (.array es) ∧ Name.url.chars <+: key ∧ i = k + 1 := by
  constructor
  · rintro ⟨⟨k, ⟨_, ⟨⟨hntp, hstring⟩, hurl⟩, _⟩, hparent⟩, htype⟩
    obtain ⟨j, key, v, hentry, hstarts, hparent'⟩ := behind_rootKey_iff.mp hntp
    have hmember := memberAt_root.mpr hentry
    obtain rfl := h.exact_key (by decide) hmember hstarts
    have hplace := memberAt_iff_place.mp hmember
    have hrooted := hmember.rooted
    cases v with
    | string | primitive => exact absurd hparent' (hrooted.child_leaf rfl)
    | array elements =>
        -- a string in an array has nothing below it
        obtain ⟨w, hentry'⟩ := hrooted.child_array.mp hparent'
        have hw := hrooted.element hentry'
        have hleaf : w.type = .string := (stringAt_of_getElem? hw.root).mp hstring
        cases w with
        | string raw => exact absurd hparent (hw.child_leaf rfl)
        | primitive | array | object => cases hleaf
    | object members =>
        obtain ⟨key', w, hentry'⟩ := hrooted.child_object.mp hparent'
        have hkey : MemberAt ms [.ntp] k key' w := ⟨j + 1, members, hplace, hentry'⟩
        obtain rfl := (hrooted.child_key hentry').mp hparent
        have harray : w.type = .array := by
          rw [typeAt, hkey.rooted.root] at htype
          exact Option.some.inj htype
        cases w with
        | array es => exact ⟨k, key', es, hkey, (hkey.starts_iff _).mp hurl, rfl⟩
        | string | primitive | object => cases harray
  · rintro ⟨k, key, es, hkey, hurl, rfl⟩
    obtain ⟨j, u, hentry, hparent, _, _⟩ := hkey.in_root
    have hurlKey : UrlKey (documentNodes ms) k := by
      refine ⟨⟨behind_rootKey_iff.mpr ⟨j, _, u, hentry, List.prefix_rfl, hparent⟩,
        hkey.stringAt⟩, (hkey.starts_iff _).mpr hurl⟩
    refine ⟨⟨k, ⟨Nat.lt_succ_self k, hurlKey, fun x hlow hhigh => by omega⟩, ?_⟩, ?_⟩
    · obtain ⟨o, members, hplace, hentry'⟩ := hkey
      exact (((rooted_document ms).place hplace).child_key hentry').mpr rfl
    · rw [typeAt, hkey.rooted.root]
      rfl

/-- The URLs. -/
theorem Conforming.urlEntry_iff (h : Conforming ms) :
    UrlEntry (documentNodes ms) i ↔
      ∃ k key es raw, MemberAt ms [.ntp] k key (.array es) ∧ Name.url.chars <+: key ∧
        (i, .string raw) ∈ es.entries (k + 2) := by
  constructor
  · rintro ⟨_, ⟨a, ⟨_, harray, _⟩, hparent⟩, hstring⟩
    obtain ⟨k, key, es, hkey, hurl, rfl⟩ := h.urlArray_iff.mp harray
    obtain ⟨w, hentry⟩ := hkey.rooted.child_array.mp hparent
    have hleaf : w.type = .string :=
      (stringAt_of_getElem? (hkey.rooted.element hentry).root).mp hstring
    cases w with
    | string raw => exact ⟨k, key, es, raw, hkey, hurl, hentry⟩
    | primitive | array | object => cases hleaf
  · rintro ⟨k, key, es, raw, hkey, hurl, hentry⟩
    have hparent := hkey.rooted.child_array.mpr ⟨_, hentry⟩
    have hpos := (Value.array es).size_pos
    obtain ⟨hlow, hhigh⟩ := hkey.rooted.inside i (k + 1) hparent (Nat.le_refl _) (by omega)
    refine ⟨not_claimed_of_parent hkey.not_root hparent, ⟨k + 1, ⟨hlow, ?_, ?_⟩, hparent⟩,
      (stringAt_of_getElem? (hkey.rooted.element hentry).root).mpr rfl⟩
    · exact h.urlArray_iff.mpr ⟨k, key, es, hkey, hurl, rfl⟩
    · -- an array in between would have its key in the range of this one
      intro a hka hai harray
      obtain ⟨⟨k', ⟨_, hk', _⟩, hparent'⟩, _⟩ := harray
      rcases Value.branch hkey.rooted.span a (by omega) (by omega) with
        ⟨heq, _⟩ | ⟨_, q, hparent'', hq, hqa⟩
      · omega
      · rw [hparent'] at hparent''
        cases hparent''
        exact hkey.not_behind_inside (by omega) (by omega) hk'.1.1

/-- The key of the `psk` section. -/
theorem Conforming.pskKey_iff (h : Conforming ms) :
    PskKey (documentNodes ms) i ↔ ∃ members, MemberAt ms [.lwm2m] i Name.psk.chars
      (.object members) := by
  constructor
  · rintro ⟨hlwm2m, hpsk⟩
    obtain ⟨key, v, hmember⟩ := h.inLwm2m_iff.mp hlwm2m
    obtain rfl := h.exact_key (by decide) hmember ((hmember.starts_iff _).mp hpsk)
    have htype := h.objects _ (by decide) v (mem_valuesAt.mpr ⟨_, memberAt_iff_place.mp hmember⟩)
    cases v with
    | object members => exact ⟨members, hmember⟩
    | string | primitive | array => cases htype
  · rintro ⟨members, hmember⟩
    exact ⟨h.inLwm2m_iff.mpr ⟨_, _, hmember⟩, (hmember.starts_iff _).mpr List.prefix_rfl⟩

theorem Conforming.inPsk_iff (h : Conforming ms) :
    InPsk (documentNodes ms) i ↔ ∃ key v, MemberAt ms [.lwm2m, .psk] i key v := by
  constructor
  · rintro ⟨_, _, ⟨k, ⟨_, hkey, _⟩, hparent⟩, _⟩
    obtain ⟨members, hmember⟩ := h.pskKey_iff.mp hkey
    obtain ⟨key, v, hentry⟩ := hmember.rooted.child_object.mp hparent
    exact ⟨key, v, k + 1, members, memberAt_iff_place.mp hmember, hentry⟩
  · rintro ⟨key, v, hmember⟩
    have hstring := hmember.stringAt
    obtain ⟨o, members, hplace, hentry⟩ := hmember
    change _ ∈ Value.places ([.lwm2m] ++ [.psk]) 0 _ at hplace
    obtain ⟨k, p, members', rfl, hplace', hentry'⟩ := mem_places_concat.mp hplace
    have hkey : MemberAt ms [.lwm2m] k Name.psk.chars (.object members) :=
      ⟨p, members', hplace', hentry'⟩
    have hparent := hkey.rooted.child_object.mpr ⟨key, v, hentry⟩
    have hpos := (Value.object members).size_pos
    obtain ⟨hlow, hhigh⟩ := hkey.rooted.inside i (k + 1) hparent (Nat.le_refl _) (by omega)
    refine ⟨not_claimed_of_parent hkey.not_root hparent, ?_,
      ⟨k, ⟨by omega, h.pskKey_iff.mpr ⟨members, hkey⟩, ?_⟩, hparent⟩, hstring⟩
    · rintro ⟨_, ⟨a, ⟨_, ⟨_, harray⟩, _⟩, hparent'⟩, _⟩
      rw [hparent] at hparent'
      cases hparent'
      rw [typeAt, hkey.rooted.root] at harray
      cases harray
    · intro k' hlow' hhigh' hpsk
      exact hkey.not_behind_inside hlow' (by omega) hpsk.1.1

/-! ## What is stored -/

/-- A key of a section with a given name. -/
theorem Conforming.named_iff (h : Conforming ms) {path : List Name} {name : Name}
    (hname : ∃ level ∈ levels, level.1 = path ∧ name ∈ level.2) {inSection : Prop}
    (hsection : inSection ↔ ∃ key v, MemberAt ms path i key v) :
    inSection ∧ Starts (documentNodes ms) name i ↔
      ∃ v, (i + 1, v) ∈ Value.places (path ++ [name]) 0 (.object ms) := by
  constructor
  · rintro ⟨hin, hstarts⟩
    obtain ⟨key, v, hmember⟩ := hsection.mp hin
    obtain rfl := h.exact_key hname hmember ((hmember.starts_iff _).mp hstarts)
    exact ⟨v, memberAt_iff_place.mp hmember⟩
  · rintro ⟨v, hplace⟩
    have hmember := memberAt_iff_place.mpr hplace
    exact ⟨hsection.mpr ⟨_, v, hmember⟩, (hmember.starts_iff _).mpr List.prefix_rfl⟩

theorem Conforming.selects_iff (h : Conforming ms) {slot : Slot} (hslot : slot ≠ .ntpUrl) :
    Selects (documentNodes ms) slot i ↔
      ∃ v, (i + 1, v) ∈ Value.places slot.path 0 (.object ms) := by
  cases slot with
  | wifiSsid | wifiKey => exact h.named_iff (by decide) h.inWifi_iff
  | lwm2mUri => exact h.named_iff (by decide) h.inLwm2m_iff
  | lwm2mPskId | lwm2mPskKey => exact h.named_iff (by decide) h.inPsk_iff
  | ntpUrl => exact absurd rfl hslot

theorem valueIndex_eq {slot : Slot} (hslot : slot ≠ .ntpUrl) : valueIndex slot i = i + 1 := by
  cases slot with
  | ntpUrl => exact absurd rfl hslot
  | _ => rfl

/-- The strings stored in a buffer are those at its path. -/
theorem Conforming.stores_iff (h : Conforming ms) {slot : Slot} (hslot : slot ≠ .ntpUrl) :
    Stores (documentNodes ms) slot i ↔
      ∃ v, (i + 1, v) ∈ Value.places slot.path 0 (.object ms) := by
  rw [Stores, h.selects_iff hslot, valueIndex_eq hslot]
  constructor
  · rintro ⟨hplace, _⟩
    exact hplace
  · rintro ⟨v, hplace⟩
    refine ⟨⟨v, hplace⟩, ?_⟩
    rw [stringAt_of_getElem? ((rooted_document ms).place hplace).root]
    exact (h.short slot hslot v (mem_valuesAt.mpr ⟨_, hplace⟩)).1

theorem storedText_place {slot : Slot} (hslot : slot ≠ .ntpUrl) {v : Value}
    (hplace : (i + 1, v) ∈ Value.places slot.path 0 (.object ms)) :
    storedText (documentNodes ms) slot i = v.text := by
  rw [storedText, valueIndex_eq hslot,
    textAt_of_getElem? ((rooted_document ms).place hplace).root]

theorem places_succ {w : Value} : ∀ {path : List Name} {o : Nat} {v : Value}, path ≠ [] →
    (i, w) ∈ Value.places path o v → ∃ k, i = k + 1 := by
  intro path
  induction path with
  | nil =>
      intro o v hne
      exact absurd rfl hne
  | cons name path ih =>
      intro o v _ hplace
      obtain ⟨k, u, _, hplace'⟩ := mem_places_cons.mp hplace
      cases path with
      | nil =>
          cases List.mem_singleton.mp hplace'
          exact ⟨k, rfl⟩
      | cons => exact ih (by simp) hplace'

/-- The strings stored in a buffer leave what the document has at its path. -/
theorem Conforming.lastStored (h : Conforming ms) {slot : Slot} (hslot : slot ≠ .ntpUrl) :
    LastStored (documentNodes ms) slot (ms.configured slot) := by
  have hstores : ∀ k, Stores (documentNodes ms) slot k ↔ _ := fun k => h.stores_iff hslot
  have honce := h.once slot hslot
  have hshort := h.short slot hslot
  have hpath : slot.path ≠ [] := by cases slot <;> simp [Slot.path]
  rw [Members.configured]
  cases hplaces : Value.places slot.path 0 (.object ms) with
  | nil =>
      rw [Members.valuesAt, hplaces]
      refine lastStored_nil.mpr fun k hk => ?_
      obtain ⟨v, hplace⟩ := (hstores k).mp hk
      rw [hplaces] at hplace
      cases hplace
  | cons place rest =>
      obtain ⟨o, v⟩ := place
      obtain rfl : rest = [] := by
        rw [Members.valuesAt, hplaces] at honce
        simpa using honce
      have hmem : (o, v) ∈ Value.places slot.path 0 (.object ms) := by simp [hplaces]
      obtain ⟨k, rfl⟩ := places_succ hpath hmem
      have htype := (hshort v (mem_valuesAt.mpr ⟨_, hmem⟩)).1
      have htext := storedText_place hslot hmem
      -- the value is the only one stored
      have honly : ∀ k', Stores (documentNodes ms) slot k' → k' = k := by
        intro k' hk'
        obtain ⟨v', hplace⟩ := (hstores k').mp hk'
        rw [hplaces] at hplace
        cases List.mem_singleton.mp hplace
        rfl
      cases v with
      | string raw =>
          rw [Members.valuesAt, hplaces]
          refine ⟨fun k' hk' => ?_, fun p hp => ?_⟩
          · rw [honly k' hk', htext]
            exact Nat.le_refl _
          · refine ⟨k, (hstores k).mpr ⟨_, hmem⟩, by rw [htext]; rfl, fun k' hlow hk' => ?_⟩
            exact absurd (honly k' hk') (by omega)
      | primitive | array | object => cases htype

theorem Conforming.storedText_short (h : Conforming ms) {slot : Slot} (hslot : slot ≠ .ntpUrl)
    (hstores : Stores (documentNodes ms) slot i) :
    (storedText (documentNodes ms) slot i).length < slot.capacity := by
  obtain ⟨v, hplace⟩ := (h.stores_iff hslot).mp hstores
  rw [storedText_place hslot hplace]
  exact (h.short slot hslot v (mem_valuesAt.mpr ⟨_, hplace⟩)).2

/-! ## Staying inside the arrays -/

theorem MemberAt.next_lt {path : List Name} {key : List UInt8} {v : Value}
    (h : MemberAt ms path i key v) : i + 1 < (documentNodes ms).length :=
  (List.getElem?_eq_some_iff.mp h.rooted.root).1

theorem Conforming.keyRead_next (h : Conforming ms) (hkey : KeyRead (documentNodes ms) i) :
    i + 1 < (documentNodes ms).length := by
  rcases hkey with hkey | hkey | hkey
  · obtain ⟨key, v, hmember⟩ := h.inWifi_iff.mp hkey
    exact hmember.next_lt
  · obtain ⟨key, v, hmember⟩ := h.inLwm2m_iff.mp hkey
    exact hmember.next_lt
  · obtain ⟨key, v, hmember⟩ := h.inPsk_iff.mp hkey
    exact hmember.next_lt

theorem mem_urlStrings {raw : List UInt8} :
    raw ∈ ms.urlStrings ↔ ∃ k key es, MemberAt ms [.ntp] k key (.array es) ∧
      Name.url.chars <+: key ∧ ∃ i, (i, .string raw) ∈ es.entries (k + 2) := by
  simp only [Members.urlStrings, List.mem_flatMap, mem_valuesAt, Prod.exists]
  constructor
  · rintro ⟨v, ⟨o, hplace⟩, key, w, hmember, hraw⟩
    split_ifs at hraw with hurl
    · obtain ⟨k, hentry⟩ := (mem_layout v.members.toList (o + 1)).mp hmember
      obtain ⟨x, hx, hstring⟩ := List.mem_filterMap.mp hraw
      obtain rfl : x = .string raw := by
        cases x with
        | string raw' => rw [Option.some.inj hstring]
        | primitive | array | object => cases hstring
      cases v with
      | object members =>
          cases w with
          | array es =>
              obtain ⟨i, hi⟩ := (mem_layout es.toList (k + 2)).mp hx
              exact ⟨k, key, es, ⟨o, members, hplace, hentry⟩, List.isPrefixOf_iff_prefix.mp hurl,
                i, hi⟩
          | string | primitive | object => cases hx
      | string | primitive | array => cases hmember
    · cases hraw
  · rintro ⟨k, key, es, ⟨o, members, hplace, hentry⟩, hurl, i, hi⟩
    refine ⟨_, ⟨o, hplace⟩, key, _, (mem_layout members.toList (o + 1)).mpr ⟨k, hentry⟩, ?_⟩
    rw [if_pos (List.isPrefixOf_iff_prefix.mpr hurl)]
    exact List.mem_filterMap.mpr ⟨_, (mem_layout es.toList (k + 2)).mpr ⟨i, hi⟩, rfl⟩

/-- The URLs are the strings in the arrays below `ntp`. -/
theorem Conforming.mem_urlStrings_iff (h : Conforming ms) {raw : List UInt8} :
    raw ∈ ms.urlStrings ↔
      ∃ i, UrlEntry (documentNodes ms) i ∧ textAt (documentNodes ms) i = raw := by
  rw [mem_urlStrings]
  constructor
  · rintro ⟨k, key, es, hkey, hurl, i, hentry⟩
    exact ⟨i, h.urlEntry_iff.mpr ⟨k, key, es, raw, hkey, hurl, hentry⟩,
      textAt_of_getElem? (hkey.rooted.element hentry).root⟩
  · rintro ⟨i, hentry, htext⟩
    obtain ⟨k, key, es, raw', hkey, hurl, hmem⟩ := h.urlEntry_iff.mp hentry
    rw [textAt_of_getElem? (hkey.rooted.element hmem).root] at htext
    cases htext
    exact ⟨k, key, es, hkey, hurl, i, hmem⟩

end Sections

/-! ## Documents -/

/-- From zeroed buffers, the loader leaves in each of the five buffers the string the
document has at its path, as a C string, precisely if every string in an array below `ntp`
whose key starts with `url` fits into the buffer of the NTP server. -/
theorem load_document_iff {ms : Members} {text : List UInt8} (htext : DocumentText ms text)
    (h : Conforming ms) :
    (∃ c, uisoLoadConfig (some text) Buffers.zero = .ok c ∧
      ∀ slot : Slot, slot ≠ .ntpUrl → (c slot).cString = some (ms.configured slot)) ↔
    ∀ raw ∈ ms.urlStrings, raw.length ≤ Slot.ntpUrl.capacity := by
  have hnul := nodesOf_nul_free text
  rw [nodesOf_document htext] at hnul
  rw [uisoLoadConfig_document htext]
  constructor
  · rintro ⟨c, hload, _⟩ raw hraw
    obtain ⟨i, hentry, rfl⟩ := h.mem_urlStrings_iff.mp hraw
    exact ((loadNodes_ok_iff _ _).mp ⟨c, hload⟩ i hentry.2.2.lt_length).fits hentry
  · intro hfits
    obtain ⟨c, hload⟩ := (loadNodes_ok_iff (documentNodes ms) Buffers.zero).mpr fun i _ =>
      ⟨h.keyRead_next, fun hentry => hfits _ (h.mem_urlStrings_iff.mpr ⟨i, hentry, rfl⟩)⟩
    refine ⟨c, hload, fun slot hslot => ?_⟩
    rw [(loadNodes_settled hload).cString_iff hnul]
    exact ⟨fun k hk => h.storedText_short hslot hk, h.lastStored hslot⟩

/-- A document that sets everything. -/
def fullDocument : Members :=
  .cons (chars "wifi") (.object (.cons (chars "ssid") (.string (chars "uiso"))
    (.cons (chars "key") (.string (chars "secret")) .nil)))
  (.cons (chars "ntp") (.object (.cons (chars "url")
    (.array (.cons (.string (chars "pool.ntp.org")) .nil)) .nil))
  (.cons (chars "lwm2m") (.object (.cons (chars "uri") (.string (chars "coaps://host:5684"))
    (.cons (chars "psk") (.object (.cons (chars "id") (.string (chars "me"))
      (.cons (chars "key") (.string (chars "a2V5")) .nil))) .nil))) .nil))

theorem fullDocument_valid : fullDocument.Valid := by
  simp only [fullDocument, Members.Valid, Value.Valid, Elements.Valid, and_true]
  refine ⟨?_, ⟨?_, ?_, ?_, ?_⟩, ?_, ⟨?_, ?_⟩, ?_, ?_, ?_, ?_, ?_, ?_, ?_, ?_⟩ <;>
    exact stringText_of_plain (by decide)

theorem fullDocument_conforming : Conforming fullDocument where
  once slot _ := by cases slot <;> decide
  objects := by decide
  exact_keys := by decide
  short slot hslot := by cases slot <;> first | decide | exact absurd rfl hslot
  urls := by decide

theorem load_document_iff_full :
    (∃ c, uisoLoadConfig (some (Value.object fullDocument).render) Buffers.zero = .ok c ∧
      ∀ slot : Slot, slot ≠ .ntpUrl → (c slot).cString = some (fullDocument.configured slot)) ∧
    fullDocument.configured .lwm2mPskKey = chars "a2V5" :=
  ⟨(load_document_iff (documentText_render fullDocument_valid) fullDocument_conforming).mpr
    (by decide), by decide⟩

/-- A document whose only member is `ntp`, with a URL of 65 characters below `urls`. -/
def longUrlDocument : Members :=
  .cons (chars "ntp") (.object (.cons (chars "urls")
    (.array (.cons (.string (List.replicate 65 120)) .nil)) .nil)) .nil

/-- The URL is copied over the end of its buffer, although the document has no `ntp.url`. -/
theorem long_url_overflows :
    ¬∀ (ms : Members) (text : List UInt8), DocumentText ms text → Conforming ms →
      ∃ c, uisoLoadConfig (some text) Buffers.zero = .ok c ∧
        ∀ slot : Slot, slot ≠ .ntpUrl → (c slot).cString = some (ms.configured slot) := by
  intro h
  have hvalid : longUrlDocument.Valid := by
    simp only [longUrlDocument, Members.Valid, Value.Valid, Elements.Valid, and_true]
    refine ⟨?_, ?_, ?_⟩ <;> exact stringText_of_plain (by decide)
  have hconforming : Conforming longUrlDocument :=
    { once := fun slot _ => by cases slot <;> decide
      objects := by decide
      exact_keys := by decide
      short := fun slot _ => by cases slot <;> decide
      urls := by decide }
  obtain ⟨c, hc, _⟩ := h longUrlDocument _ (documentText_render hvalid) hconforming
  have hfault : (uisoLoadConfig (some (Value.object longUrlDocument).render)
      Buffers.zero).toOption.isNone := by
    decide +kernel
  rw [hc] at hfault
  cases hfault

end Uiso.Config
