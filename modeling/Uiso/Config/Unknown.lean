/-
  Config/Unknown.lean --- what a member that the loader does not know makes of the buffers.

  A member whose key is none of the names at its level should change nothing.  The loader
  does not see levels, though.  It compares the first characters of a key, takes a value's
  place in the array for its place in the document, and reads the token behind a string in an
  array as the string's value.  The keys whose members are ignored wherever they stand in a
  section are those that start with none of the section's names, if the member does not
  separate a string that is taken for a key from the token behind it.
-/
import Uiso.Config.Relocate
import Uiso.Config.Values

set_option autoImplicit false

namespace Uiso.Config

open Uiso.Foundation

/-! ## Adding a member -/

/-- The way from the root of a document to an object: a key for a member, `none` for an
element of an array. -/
abbrev Path := List (Option (List UInt8))

section Adding

variable (key : List UInt8) (value : Value)

mutual

/-- The second value is the first with a member added somewhere inside; the member's object is
at the path, and its key is the node with the given offset. -/
inductive Value.Adds : Value → Value → Path → Nat → Prop where
  | object {ms ms' : Members} {path : Path} {offset : Nat} (h : Members.Adds ms ms' path offset) :
      Value.Adds (.object ms) (.object ms') path (1 + offset)
  | array {es es' : Elements} {path : Path} {offset : Nat} (h : Elements.Adds es es' path offset) :
      Value.Adds (.array es) (.array es') path (1 + offset)

/-- A member added inside one of the elements. -/
inductive Elements.Adds : Elements → Elements → Path → Nat → Prop where
  | head {v v' : Value} {rest : Elements} {path : Path} {offset : Nat}
      (h : Value.Adds v v' path offset) :
      Elements.Adds (.cons v rest) (.cons v' rest) (none :: path) offset
  | tail {v : Value} {rest rest' : Elements} {path : Path} {offset : Nat}
      (h : Elements.Adds rest rest' path offset) :
      Elements.Adds (.cons v rest) (.cons v rest') path (v.size + offset)

/-- A member added in front of the members, inside one of them or behind. -/
inductive Members.Adds : Members → Members → Path → Nat → Prop where
  | here {ms : Members} : Members.Adds ms (.cons key value ms) [] 0
  | inside {k : List UInt8} {v v' : Value} {rest : Members} {path : Path} {offset : Nat}
      (h : Value.Adds v v' path offset) :
      Members.Adds (.cons k v rest) (.cons k v' rest) (some k :: path) (1 + offset)
  | later {k : List UInt8} {v : Value} {rest rest' : Members} {path : Path} {offset : Nat}
      (h : Members.Adds rest rest' path offset) :
      Members.Adds (.cons k v rest) (.cons k v rest') path (1 + v.size + offset)

end

end Adding

/-- The names at every level. -/
def knownLevels : List (List Name × List Name) := ([.ntp], [.url]) :: levels

/-- The key is one of the names at its level. -/
def Known (path : Path) (key : List UInt8) : Prop :=
  ∃ level ∈ knownLevels, path = level.1.map (fun name => some name.chars) ∧
    ∃ name ∈ level.2, key = name.chars

/-! ## The nodes of the new document -/

mutual

theorem Value.nodes_relocate : ∀ (v : Value) (m s base : Nat) (parent : Option Nat), m < base →
    (v.nodes base parent).map (Node.relocate m s) =
      v.nodes (base + s) (parent.map (relocate m s))
  | .string _, m, s, base, parent, h => rfl
  | .primitive _, m, s, base, parent, h => rfl
  | .array elements, m, s, base, parent, h => by
      rw [Value.nodes, Value.nodes, List.map_cons,
        elements.nodes_relocate m s _ base (Nat.lt_succ_of_lt h), relocate_of_lt h,
        Nat.add_right_comm]
      rfl
  | .object members, m, s, base, parent, h => by
      rw [Value.nodes, Value.nodes, List.map_cons,
        members.nodes_relocate m s _ base (Nat.lt_succ_of_lt h), relocate_of_lt h,
        Nat.add_right_comm]
      rfl

theorem Elements.nodes_relocate : ∀ (es : Elements) (m s base owner : Nat), m < base →
    (es.nodes base owner).map (Node.relocate m s) = es.nodes (base + s) (relocate m s owner)
  | .nil, m, s, base, owner, h => rfl
  | .cons value rest, m, s, base, owner, h => by
      rw [Elements.nodes, Elements.nodes, List.map_append, value.nodes_relocate m s _ _ h,
        rest.nodes_relocate m s _ owner (Nat.lt_add_right _ h), Nat.add_right_comm]
      rfl

theorem Members.nodes_relocate : ∀ (ms : Members) (m s base owner : Nat), m < base →
    (ms.nodes base owner).map (Node.relocate m s) = ms.nodes (base + s) (relocate m s owner)
  | .nil, m, s, base, owner, h => rfl
  | .cons key value rest, m, s, base, owner, h => by
      rw [Members.nodes, Members.nodes, List.map_cons, List.map_append,
        value.nodes_relocate m s _ _ (Nat.lt_succ_of_lt h),
        rest.nodes_relocate m s _ owner (by omega), Option.map_some, relocate_of_lt h,
        Nat.add_right_comm base 1 s, Nat.add_right_comm (base + 1) value.size s,
        Nat.add_right_comm base 1 s]
      rfl

end

/-- The nodes of a member whose key is node `m + 1`. -/
def memberNodes (key : List UInt8) (value : Value) (m o : Nat) : List Node :=
  ⟨.string, some o, key⟩ :: value.nodes (m + 2) (some (m + 1))

/-- The second list is the first with the nodes of a member inserted behind node `m`; both
start at index `base`. -/
def Inserts (key : List UInt8) (value : Value) (m base : Nat) (old new : List Node) : Prop :=
  ∃ before after o, base + before.length = m + 1 ∧ old = before ++ after ∧
    new = before ++ (memberNodes key value m o ++
      after.map (Node.relocate m (memberSize (key, value))))

section Inserts

variable {key : List UInt8} {value : Value} {m base : Nat} {old new : List Node}

theorem Inserts.prepend (front : List Node)
    (h : Inserts key value m (base + front.length) old new) :
    Inserts key value m base (front ++ old) (front ++ new) := by
  obtain ⟨before, after, o, hlength, rfl, rfl⟩ := h
  refine ⟨front ++ before, after, o, ?_, by simp, by simp⟩
  rw [List.length_append]
  omega

theorem Inserts.append (back : List Node) (h : Inserts key value m base old new) :
    Inserts key value m base (old ++ back)
      (new ++ back.map (Node.relocate m (memberSize (key, value)))) := by
  obtain ⟨before, after, o, hlength, rfl, rfl⟩ := h
  exact ⟨before, after ++ back, o, hlength, by simp, by simp⟩

theorem Inserts.length (h : Inserts key value m base old new) :
    new.length = old.length + memberSize (key, value) ∧ m + 1 ≤ base + old.length ∧
      base ≤ m + 1 := by
  obtain ⟨before, after, o, hlength, rfl, rfl⟩ := h
  simp only [memberNodes, List.length_append, List.length_cons, List.length_map,
    Value.length_nodes, memberSize_mk]
  omega

mutual

theorem Value.Adds.inserts : ∀ {v v' : Value} {path : Path} {offset base : Nat}
    (parent : Option Nat), Value.Adds key value v v' path offset → base + offset = m + 1 →
    Inserts key value m base (v.nodes base parent) (v'.nodes base parent)
  | .object ms, .object ms', _, _, base, parent, .object h, hm => by
      have hinner : Inserts key value m (base + 1) (ms.nodes (base + 1) base)
          (ms'.nodes (base + 1) base) :=
        h.inserts (Nat.lt_succ_self base) (by omega)
      exact .prepend [_] hinner
  | .array es, .array es', _, _, base, parent, .array h, hm => by
      have hinner : Inserts key value m (base + 1) (es.nodes (base + 1) base)
          (es'.nodes (base + 1) base) :=
        h.inserts (Nat.lt_succ_self base) (by omega)
      exact .prepend [_] hinner

theorem Elements.Adds.inserts : ∀ {es es' : Elements} {path : Path} {offset base owner : Nat},
    Elements.Adds key value es es' path offset → owner < base → base + offset = m + 1 →
    Inserts key value m base (es.nodes base owner) (es'.nodes base owner)
  | .cons v rest, .cons v' _, _, _, base, owner, .head h, howner, hm => by
      have hinner := h.inserts (some owner) hm
      obtain ⟨hsize, hend, _⟩ := hinner.length
      simp only [Value.length_nodes] at hsize hend
      have hrest := rest.nodes_relocate m (memberSize (key, value)) (base + v.size) owner (by omega)
      have hmoved : base + v.size + memberSize (key, value) = base + v'.size := by omega
      rw [relocate_of_le (by omega), hmoved] at hrest
      have happend := hinner.append (rest.nodes (base + v.size) owner)
      rw [hrest] at happend
      exact happend
  | .cons v rest, _, _, _, base, owner, .tail h, howner, hm => by
      refine .prepend _ ?_
      rw [Value.length_nodes]
      exact h.inserts (by omega) (by omega)

theorem Members.Adds.inserts : ∀ {ms ms' : Members} {path : Path} {offset base owner : Nat},
    Members.Adds key value ms ms' path offset → owner < base → base + offset = m + 1 →
    Inserts key value m base (ms.nodes base owner) (ms'.nodes base owner)
  | ms, _, _, _, base, owner, .here, howner, hm => by
      obtain rfl : base = m + 1 := by omega
      refine ⟨[], ms.nodes (m + 1) owner, owner, rfl, rfl, ?_⟩
      rw [ms.nodes_relocate m _ (m + 1) owner (Nat.lt_succ_self m), relocate_of_le (by omega),
        memberSize_mk, ← Nat.add_assoc]
      rfl
  | .cons k v rest, .cons _ v' _, _, _, base, owner, .inside h, howner, hm => by
      have hinner : Inserts key value m (base + 1) (v.nodes (base + 1) (some base))
          (v'.nodes (base + 1) (some base)) :=
        h.inserts (some base) (by omega)
      obtain ⟨hsize, hend, _⟩ := hinner.length
      simp only [Value.length_nodes] at hsize hend
      have hrest := rest.nodes_relocate m (memberSize (key, value)) (base + 1 + v.size) owner
        (by omega)
      have hmoved : base + 1 + v.size + memberSize (key, value) = base + 1 + v'.size := by omega
      rw [relocate_of_le (by omega), hmoved] at hrest
      have happend := hinner.append (rest.nodes (base + 1 + v.size) owner)
      rw [hrest] at happend
      exact .prepend [_] happend
  | .cons k v rest, _, _, _, base, owner, .later h, howner, hm => by
      refine .prepend [_] (.prepend _ ?_)
      rw [Value.length_nodes]
      exact h.inserts (by simp only [List.length_cons, List.length_nil]; omega)
        (by simp only [List.length_cons, List.length_nil]; omega)

end

end Inserts

/-! ## The place of the new member -/

/-- Node `i` is the key of the new member, whose object stands at node `o` or behind; if it
stands there, the path is empty. -/
def AddedAt (key : List UInt8) (value : Value) (nodes : List Node) (o : Nat) (path : Path)
    (i : Nat) : Prop :=
  ∃ p members, o ≤ p ∧ (p = o → path = []) ∧ Rooted nodes p (.object members) ∧
    (i, key, value) ∈ members.entries (p + 1)

section AddedAt

variable {key : List UInt8} {value : Value} {nodes : List Node}

/-- Seen from further above. -/
theorem AddedAt.lower {o o' i : Nat} {path path' : Path} (h : AddedAt key value nodes o path i)
    (ho : o' < o) : AddedAt key value nodes o' path' i := by
  obtain ⟨p, members, hp, _, hrooted⟩ := h
  exact ⟨p, members, by omega, fun heq => by omega, hrooted⟩

mutual

theorem Value.Adds.addedAt : ∀ {v v' : Value} {path : Path} {offset o : Nat},
    Value.Adds key value v v' path offset → Rooted nodes o v' →
    AddedAt key value nodes o path (o + offset)
  | .object ms, .object ms', _, _, o, .object h, hrooted => by
      rw [← Nat.add_assoc]
      exact h.addedAt hrooted fun entry hentry => hentry
  | .array es, .array es', _, _, o, .array h, hrooted => by
      rw [← Nat.add_assoc]
      exact h.addedAt hrooted fun entry hentry => hentry

theorem Elements.Adds.addedAt : ∀ {es es' all : Elements} {path : Path} {offset o base : Nat},
    Elements.Adds key value es es' path offset → Rooted nodes o (.array all) →
    (∀ entry ∈ es'.entries base, entry ∈ all.entries (o + 1)) →
    AddedAt key value nodes o path (base + offset)
  | .cons v rest, .cons v' _, all, _, _, o, base, .head h, hrooted, hall => by
      have hentry := hall (base, v') List.mem_cons_self
      have hbase := (layout_range hentry).1
      exact (h.addedAt (hrooted.element hentry)).lower hbase
  | .cons v rest, .cons _ rest', all, _, _, o, base, .tail h, hrooted, hall => by
      rw [← Nat.add_assoc]
      exact h.addedAt hrooted fun entry hentry => hall entry (List.mem_cons_of_mem _ hentry)

theorem Members.Adds.addedAt : ∀ {ms ms' all : Members} {path : Path} {offset o base : Nat},
    Members.Adds key value ms ms' path offset → Rooted nodes o (.object all) →
    (∀ entry ∈ ms'.entries base, entry ∈ all.entries (o + 1)) →
    AddedAt key value nodes o path (base + offset)
  | _, _, all, _, _, o, base, .here, hrooted, hall =>
      ⟨o, all, Nat.le_refl o, fun _ => rfl, hrooted, hall _ List.mem_cons_self⟩
  | .cons k v rest, .cons _ v' _, all, _, _, o, base, .inside h, hrooted, hall => by
      have hentry := hall (base, k, v') List.mem_cons_self
      have hbase := (layout_range hentry).1
      rw [← Nat.add_assoc]
      exact (h.addedAt (hrooted.member hentry)).lower (by omega)
  | .cons k v rest, .cons _ _ rest', all, _, _, o, base, .later h, hrooted, hall => by
      rw [← Nat.add_assoc, ← Nat.add_assoc]
      refine h.addedAt hrooted fun entry hentry => hall entry (List.mem_cons_of_mem _ ?_)
      rw [memberSize_mk, ← Nat.add_assoc]
      exact hentry

end

end AddedAt

/-! ## Sections -/

/-- The sections of the walk. -/
inductive Section where
  | root
  | wifi
  | lwm2m
  | ntp
  | psk
  | other
  deriving DecidableEq, Repr

/-- The names keys of the section are compared with. -/
def Section.names : Section → List Name
  | .root => [.wifi, .lwm2m, .ntp]
  | .wifi => [.ssid, .key]
  | .lwm2m => [.uri, .psk]
  | .ntp => [.url]
  | .psk => [.id, .key]
  | .other => []

/-- The walk takes token `i` for a key of the section. -/
def InSection (nodes : List Node) (i : Nat) : Section → Prop
  | .root => RootString nodes i
  | .wifi => InWifi nodes i
  | .lwm2m => InLwm2m nodes i
  | .ntp => InNtp nodes i
  | .psk => InPsk nodes i
  | .other => ¬Claimed nodes i ∧ ¬InPsk nodes i

section Walk

variable {nodes : List Node} {m i : Nat} {t : Node} {st : LoadState}

theorem InSection.unique {a b : Section} (ha : InSection nodes i a) (hb : InSection nodes i b) :
    a = b := by
  have hwifi : InWifi nodes i → ¬RootString nodes i := fun h => h.1.not_root
  have hlwm2m : InLwm2m nodes i → ¬RootString nodes i := fun h => h.1.not_root
  have hntp : InNtp nodes i → ¬RootString nodes i := fun h => h.1.not_root
  have hwl : InWifi nodes i → ¬InLwm2m nodes i := not_inWifi_inLwm2m
  have hwn : InWifi nodes i → ¬InNtp nodes i := not_inWifi_inNtp
  have hln : InLwm2m nodes i → ¬InNtp nodes i := not_inLwm2m_inNtp
  have hpsk : InPsk nodes i → ¬Claimed nodes i := fun h => h.1
  cases a <;> cases b <;> simp only [InSection, Claimed] at ha hb hpsk <;> grind

/-- A key that starts with none of its section's names changes nothing. -/
theorem loadStep_unrecognised (h : Reflects nodes i st) (ht : nodes[i]? = some t)
    (hstring : StringAt nodes i) (hurl : ¬UrlEntry nodes i)
    (hnames : ∀ L, InSection nodes i L → ∀ name ∈ L.names, ¬Starts nodes name i) (next : Node) :
    loadStep nodeReader i t (some next) st = .ok st := by
  have hstarts := startsWith_iff ht
  have hcase := loadStep_case h ht
  generalize hf : (fun next => loadStep nodeReader i t next st) = f at hcase
  rw [show loadStep nodeReader i t (some next) st = f (some next) from congrFun hf _]
  cases hcase with
  | rootWifi hroot hname => exact absurd hname (hnames .root hroot _ (by simp [Section.names]))
  | rootLwm2m hroot hname => exact absurd hname (hnames .root hroot _ (by simp [Section.names]))
  | rootNtp hroot hname => exact absurd hname (hnames .root hroot _ (by simp [Section.names]))
  | rootOther => rfl
  | wifi hwifi =>
      have hssid := mt (hstarts .ssid).mp (hnames .wifi hwifi _ (by simp [Section.names]))
      have hkey := mt (hstarts .key).mp (hnames .wifi hwifi _ (by simp [Section.names]))
      simp [wifiDest, hssid, hkey, copyNext]
  | lwm2mPsk hlwm2m hname =>
      exact absurd hname (hnames .lwm2m hlwm2m _ (by simp [Section.names]))
  | lwm2m hlwm2m =>
      have huri := mt (hstarts .uri).mp (hnames .lwm2m hlwm2m _ (by simp [Section.names]))
      simp [lwm2mDest, huri, copyNext]
  | ntpUrl hntp hname => exact absurd hname (hnames .ntp hntp _ (by simp [Section.names]))
  | ntp => rfl
  | urlArray harray => exact absurd harray (not_urlArray_of_stringAt hstring)
  | urlEntry hentry => exact absurd hentry hurl
  | psk hpsk =>
      have hid := mt (hstarts .id).mp (hnames .psk hpsk _ (by simp [Section.names]))
      have hkey := mt (hstarts .key).mp (hnames .psk hpsk _ (by simp [Section.names]))
      simp [pskDest, hid, hkey, copyNext]
  | other => rfl

/-- The walk remembers no token behind `m`. -/
structure Recalls (m : Nat) (st : LoadState) : Prop where
  wifiKey : ∀ k ∈ st.wifiKey, k ≤ m
  lwm2mKey : ∀ k ∈ st.lwm2mKey, k ≤ m
  ntpKey : ∀ k ∈ st.ntpKey, k ≤ m
  lwm2mPskKey : ∀ k ∈ st.lwm2mPskKey, k ≤ m
  ntpUrlKey : ∀ k ∈ st.ntpUrlKey, k ≤ m
  ntpUrlArray : ∀ k ∈ st.ntpUrlArray, k ≤ m

theorem Reflects.recalls (h : Reflects nodes (m + 1) st) : Recalls m st := by
  have hkey : ∀ {K : Nat → Prop} {key : Option Nat}, IsLatest K (m + 1) key →
      ∀ k ∈ key, k ≤ m := by
    rintro K key hlatest k rfl
    exact Nat.le_of_lt_succ hlatest.1
  exact ⟨hkey h.wifiKey, hkey h.lwm2mKey, hkey h.ntpKey, hkey h.lwm2mPskKey, hkey h.ntpUrlKey,
    hkey h.ntpUrlArray⟩

theorem Recalls.relocate_eq (h : Recalls m st) (s : Nat) : st.relocate m s = st := by
  have hkey : ∀ {key : Option Nat}, (∀ k ∈ key, k ≤ m) → key.map (relocate m s) = key := by
    intro key hkey
    cases key with
    | none => rfl
    | some k => rw [Option.map_some, relocate_of_le (hkey k rfl)]
  simp only [LoadState.relocate, hkey h.wifiKey, hkey h.lwm2mKey, hkey h.ntpKey,
    hkey h.lwm2mPskKey, hkey h.ntpUrlKey, hkey h.ntpUrlArray]

/-- A token that hangs below a token behind `m` changes nothing. -/
theorem loadStep_foreign (h : Recalls m st) (hforgets : Forgets m st) {q : Nat}
    (hparent : t.parent = some q) (hq : m < q) (next : Option Node) :
    loadStep nodeReader i t next st = .ok st := by
  have hbehind : ∀ {key : Option Nat}, (∀ k ∈ key, k ≤ m) → key ≠ some m →
      behind key (nodeReader.parent t) = false := by
    intro key hle hne
    cases key with
    | none => rfl
    | some k =>
        have hk := hle k rfl
        have hkm : k ≠ m := fun heq => hne (by rw [heq])
        simp only [nodeReader, hparent, behind, beq_eq_false_iff_ne]
        omega
  have hat : ∀ {key : Option Nat}, (∀ k ∈ key, k ≤ m) →
      atKey key (nodeReader.parent t) = false := by
    intro key hle
    cases key with
    | none => rfl
    | some k =>
        have hk := hle k rfl
        simp only [nodeReader, hparent, atKey, beq_eq_false_iff_ne]
        omega
  have hroot : nodeReader.parent t ≠ some 0 := by
    simp only [nodeReader, hparent, ne_eq, Option.some.injEq]
    omega
  simp only [loadStep, hroot, hbehind h.wifiKey hforgets.wifiKey,
    hbehind h.lwm2mKey hforgets.lwm2mKey, hbehind h.ntpKey hforgets.ntpKey,
    hbehind h.lwm2mPskKey hforgets.lwm2mPskKey, hat h.ntpUrlKey, hat h.ntpUrlArray, false_and,
    Bool.false_eq_true, if_false]

theorem loadLoop_foreign (h : Recalls m st) (hforgets : Forgets m st) {after : Option Node} :
    ∀ {ts : List Node} {i : Nat}, (∀ t ∈ ts, ∃ q, t.parent = some q ∧ m < q) →
      loadLoop nodeReader after i ts st = .ok st := by
  intro ts
  induction ts with
  | nil =>
      intro i _
      rfl
  | cons t ts ih =>
      intro i hts
      obtain ⟨q, hparent, hq⟩ := hts t List.mem_cons_self
      rw [loadLoop, loadStep_foreign h hforgets hparent hq]
      exact ih fun u hu => hts u (List.mem_cons_of_mem t hu)

/-- What comes behind the first tokens does not matter to the walk over them, if the last of
them is not taken for a key. -/
theorem loadLoop_after {before rest : List Node} (hnodes : nodes = before ++ rest)
    (hlength : before.length = m + 1) (hkey : ¬KeyRead nodes m) (c : Buffers)
    (after after' : Option Node) :
    loadLoop nodeReader after 0 before (.start c) =
      loadLoop nodeReader after' 0 before (.start c) := by
  rcases List.eq_nil_or_concat before with rfl | ⟨init, last, rfl⟩
  · cases hlength
  rw [List.concat_eq_append] at *
  obtain rfl : init.length = m := by simpa using hlength
  have hlast : nodes[init.length]? = some last := by simp [hnodes]
  rw [loadLoop_append, loadLoop_append, Nat.zero_add]
  have hinit : ∀ after : Option Node, [last].head?.or after = some last := fun _ => rfl
  rw [hinit, hinit]
  cases hrun : loadLoop nodeReader (some last) 0 init (.start c) with
  | error fault => rfl
  | ok st₀ =>
      have hreflects : Reflects nodes init.length st₀ :=
        loadLoop_reflects ([last] ++ rest) (show nodes = [] ++ (init ++ _) by simp [hnodes])
          (Reflects.start nodes c) hrun
      simp only [Except.bind, loadLoop, List.head?_nil, Option.none_or]
      rw [loadStep_next hreflects hlast hkey after after']

end Walk

/-! ## What a new member changes -/

section Adding

variable {ms ms' : Members} {key : List UInt8} {value : Value} {path : Path} {m : Nat}

/-- The token before the new member is no key of the root. -/
theorem AddedAt.not_rootString
    (h : AddedAt key value (documentNodes ms') 0 path (m + 1)) :
    ¬RootString (documentNodes ms') m := by
  intro hroot
  obtain ⟨p, members, _, _, hrooted, hentry⟩ := h
  obtain ⟨k, v, hentry'⟩ := rootString_iff.mp hroot
  -- the token behind a root key hangs below it, and the new key below an object
  have hparent : parentAt (documentNodes ms') (m + 1) = some m :=
    ((rooted_document ms').child_key hentry').mpr rfl
  rw [hrooted.child_object.mpr ⟨key, value, hentry⟩] at hparent
  cases hparent
  have hstring := (stringAt_of_getElem? hrooted.root).mp hroot.2
  cases hstring

theorem AddedAt.not_urlEntry {i : Nat} (h : AddedAt key value (documentNodes ms') 0 path i) :
    ¬UrlEntry (documentNodes ms') i := by
  rintro ⟨_, ⟨a, ⟨_, ⟨_, harray⟩, _⟩, hparent⟩, _⟩
  obtain ⟨p, members, _, _, hrooted, hentry⟩ := h
  rw [hrooted.child_object.mpr ⟨key, value, hentry⟩] at hparent
  cases hparent
  rw [typeAt, hrooted.root] at harray
  cases harray

/-- The walk over the nodes of the new member changes nothing. -/
theorem loadLoop_member {before rest : List Node} {o : Nat} {st : LoadState}
    (hadded : AddedAt key value (documentNodes ms') 0 path (m + 1))
    (hnodes : documentNodes ms' = before ++ (memberNodes key value m o ++ rest))
    (hlength : before.length = m + 1) (hreflects : Reflects (documentNodes ms') (m + 1) st)
    (hpsk : ¬PskKey (documentNodes ms') m)
    (hnames : ∀ L, InSection (documentNodes ms') (m + 1) L → ∀ name ∈ L.names,
      ¬name.chars <+: key) (after : Option Node) :
    loadLoop nodeReader after (m + 1) (memberNodes key value m o) st = .ok st := by
  have hforgets := hreflects.forgets hadded.not_rootString hpsk
  have hnode : (documentNodes ms')[m + 1]? = some ⟨.string, some o, key⟩ := by
    rw [hnodes, List.getElem?_append_right (by omega), hlength, Nat.sub_self]
    rfl
  have hfirst : ∃ next, (value.nodes (m + 2) (some (m + 1))).head?.or after = some next := by
    rw [List.head?_eq_getElem?, Value.nodes_zero]
    exact ⟨_, rfl⟩
  obtain ⟨next, hnext⟩ := hfirst
  rw [memberNodes, loadLoop, hnext, loadStep_unrecognised hreflects hnode
    ((stringAt_of_getElem? hnode).mpr rfl) hadded.not_urlEntry (fun L hL name hname hstarts => by
      rw [Starts, textAt_of_getElem? hnode] at hstarts
      exact hnames L hL name hname hstarts)]
  refine loadLoop_foreign hreflects.recalls hforgets fun t ht => ?_
  obtain ⟨j, hj⟩ := List.getElem?_of_mem ht
  rcases value.hangsBelow (m + 2) (some (m + 1)) j t hj with hparent | ⟨q, hparent, hlow, _⟩
  · exact ⟨m + 1, hparent, Nat.lt_succ_self m⟩
  · exact ⟨q, hparent, by omega⟩

theorem Members.Adds.addedAt_document (hadds : ms.Adds key value ms' path m) :
    AddedAt key value (documentNodes ms') 0 path (m + 1) := by
  have hadded := (Value.Adds.object hadds).addedAt (rooted_document ms')
  rwa [Nat.zero_add, Nat.add_comm] at hadded

/-- A new member that is taken for a member of the root is one. -/
theorem Members.Adds.path_of_rootString (hadds : ms.Adds key value ms' path m)
    (hroot : RootString (documentNodes ms') (m + 1)) : path = [] := by
  obtain ⟨p, members, _, hpath, hrooted, hentry⟩ := hadds.addedAt_document
  have hparent := hrooted.child_object.mpr ⟨key, value, hentry⟩
  rw [hroot.1] at hparent
  cases hparent
  exact hpath rfl

/-- From the place of the new member on, the walk does what it did before. -/
theorem loadLoop_added {before after : List Node} {o : Nat} {st : LoadState}
    (hadded : AddedAt key value (documentNodes ms') 0 path (m + 1))
    (hlength : before.length = m + 1) (hold : documentNodes ms = before ++ after)
    (hnew : documentNodes ms' = before ++ (memberNodes key value m o ++
      after.map (Node.relocate m (memberSize (key, value)))))
    (hreflects : Reflects (documentNodes ms) (m + 1) st)
    (hreflects' : Reflects (documentNodes ms') (m + 1) st)
    (hpsk : ¬PskKey (documentNodes ms') m)
    (hnames : ∀ L, InSection (documentNodes ms') (m + 1) L → ∀ name ∈ L.names,
      ¬name.chars <+: key) :
    (loadLoop nodeReader none (m + 1) (memberNodes key value m o ++
        after.map (Node.relocate m (memberSize (key, value)))) st).toOption =
      (loadLoop nodeReader none (m + 1) after st).toOption.map
        (LoadState.relocate m (memberSize (key, value))) := by
  -- the token before the member is not remembered in either document
  have hforgets := hreflects'.forgets hadded.not_rootString hpsk
  have hroot : ¬RootString (documentNodes ms) m := by
    have hsame : (documentNodes ms)[m]? = (documentNodes ms')[m]? := by
      rw [hold, hnew, List.getElem?_append_left (by omega), List.getElem?_append_left (by omega)]
    intro h
    refine hadded.not_rootString ?_
    simpa only [RootString, StringAt, parentAt, typeAt, hsame] using h
  have hpsk' : ¬PskKey (documentNodes ms) m := fun h =>
    hforgets.lwm2mPskKey (hreflects.lwm2mPskKey.eq_of_last h)
  -- the walk goes over the new member, and over the moved tokens as before
  have hmember := loadLoop_member hadded hnew hlength hreflects' hpsk hnames
  have hmoved := loadLoop_relocate (s := memberSize (key, value)) hroot hpsk' hold (by omega)
    (hlength ▸ hreflects)
  rw [hreflects.recalls.relocate_eq, hlength] at hmoved
  have hlength' : (memberNodes key value m o).length = memberSize (key, value) := by
    simp [memberNodes, Nat.add_comm]
  simp only [Except.bind, loadLoop_append, hmember, hlength']
  exact hmoved

/-- A member whose key starts with none of its section's names is ignored, if it does not stand
right behind a string that is taken for a key. -/
theorem loadNodes_added (hadds : ms.Adds key value ms' path m)
    (hplace : ¬KeyRead (documentNodes ms') m)
    (hnames : ∀ L, InSection (documentNodes ms') (m + 1) L → ∀ name ∈ L.names,
      ¬name.chars <+: key) (c : Buffers) :
    (loadNodes (documentNodes ms') c).toOption = (loadNodes (documentNodes ms) c).toOption := by
  obtain ⟨before, after, o, hlength, hold, hnew⟩ :
      Inserts key value m 0 (documentNodes ms) (documentNodes ms') :=
    (Value.Adds.object hadds).inserts none (by omega)
  rw [Nat.zero_add] at hlength
  have hafter := loadLoop_after hnew hlength hplace c after.head? (memberNodes key value m o ++
    after.map (Node.relocate m (memberSize (key, value)))).head?
  -- both walks go over the tokens before the new member
  have hrun : loadLoop nodeReader none 0 (documentNodes ms) (.start c) =
      (loadLoop nodeReader after.head? 0 before (.start c)).bind
        (loadLoop nodeReader none (m + 1) after) := by
    rw [hold, loadLoop_append, Option.or_none, Nat.zero_add, hlength]
  have hrun' : loadLoop nodeReader none 0 (documentNodes ms') (.start c) =
      (loadLoop nodeReader after.head? 0 before (.start c)).bind
        (loadLoop nodeReader none (m + 1) (memberNodes key value m o ++
          after.map (Node.relocate m (memberSize (key, value))))) := by
    rw [hnew, loadLoop_append, Option.or_none, Nat.zero_add, hlength, hafter]
  have hconfig : ∀ r : Except Fault LoadState,
      (r.map (·.config)).toOption = r.toOption.map (·.config) := by
    intro r
    cases r <;> rfl
  rw [loadNodes, loadNodes, hrun, hrun', hconfig, hconfig]
  cases hfirst : loadLoop nodeReader after.head? 0 before (.start c) with
  | error fault => rfl
  | ok st =>
      have hreflects : ∀ {nodes rest : List Node}, nodes = before ++ rest →
          Reflects nodes (m + 1) st := by
        intro nodes rest hnodes
        rw [← hlength]
        exact loadLoop_reflects rest (show nodes = [] ++ (before ++ rest) from hnodes)
          (Reflects.start nodes c) hfirst
      have hrest := loadLoop_added hadds.addedAt_document hlength hold hnew (hreflects hold)
        (hreflects hnew) (fun h => hplace (.inr (.inl h.1))) hnames
      simp only [Except.bind]
      rw [hrest, Option.map_map]
      rfl

end Adding

/-! ## Keys that are ignored -/

/-- New members with the key change nothing where the walk takes them for members of the
section, if they do not stand right behind a string that is taken for a key. -/
def IgnoredIn (L : Section) (key : List UInt8) : Prop :=
  ∀ (value : Value) (ms ms' : Members) (path : Path) (m : Nat) (text text' : List UInt8)
    (c : Buffers), ms.Adds key value ms' path m → ¬Known path key → DocumentText ms text →
    DocumentText ms' text' → InSection (documentNodes ms') (m + 1) L →
    ¬KeyRead (documentNodes ms') m →
    (uisoLoadConfig (some text') c).toOption = (uisoLoadConfig (some text) c).toOption

/-- An object of the section, inside the smallest document that has one and gives none of the
sections its exact name. -/
def frame : Section → Members → Members
  | .wifi, ms => .cons (chars "wifi2") (.object ms) .nil
  | .lwm2m, ms => .cons (chars "lwm2m2") (.object ms) .nil
  | .ntp, ms => .cons (chars "ntp2") (.object ms) .nil
  | .psk, ms => .cons (chars "lwm2m2") (.object (.cons (chars "psk") (.object ms) .nil)) .nil
  | .root, ms => ms
  | .other, ms => ms

/-- The path of that object. -/
def framePath : Section → Path
  | .wifi => [some (chars "wifi2")]
  | .lwm2m => [some (chars "lwm2m2")]
  | .ntp => [some (chars "ntp2")]
  | .psk => [some (chars "lwm2m2"), some (chars "psk")]
  | .root => []
  | .other => []

/-- The node of that object. -/
def frameIndex : Section → Nat
  | .wifi => 2
  | .lwm2m => 2
  | .ntp => 2
  | .psk => 4
  | .root => 0
  | .other => 0

/-- A value that changes a buffer when its key is taken for the name, and the buffer. -/
def probe : Section → Name → Value × Slot
  | .root, .wifi => (.object (.cons (chars "ssid") (.string (chars "x")) .nil), .wifiSsid)
  | .root, .lwm2m => (.object (.cons (chars "uri") (.string (chars "x")) .nil), .lwm2mUri)
  | .root, _ =>
      (.object (.cons (chars "url") (.array (.cons (.string (chars "x")) .nil)) .nil), .ntpUrl)
  | .wifi, .ssid => (.string (chars "x"), .wifiSsid)
  | .wifi, _ => (.string (chars "x"), .wifiKey)
  | .lwm2m, .uri => (.string (chars "x"), .lwm2mUri)
  | .lwm2m, _ => (.object (.cons (chars "id") (.string (chars "x")) .nil), .lwm2mPskId)
  | .ntp, _ => (.array (.cons (.string (chars "x")) .nil), .ntpUrl)
  | .psk, .id => (.string (chars "x"), .lwm2mPskId)
  | .psk, _ => (.string (chars "x"), .lwm2mPskKey)
  | .other, _ => (.string [], .wifiSsid)

/-- Two documents that leave different first bytes in a buffer. -/
theorem texts_differ {ms ms' : Members} (hold : ms.Valid) (hnew : ms'.Valid) (slot : Slot)
    (hbyte : ((loadNodes (documentNodes ms') Buffers.zero).toOption.map
        fun c => (c slot).byte 0) ≠
      (loadNodes (documentNodes ms) Buffers.zero).toOption.map fun c => (c slot).byte 0) :
    ∃ text text', DocumentText ms text ∧ DocumentText ms' text' ∧
      (uisoLoadConfig (some text') Buffers.zero).toOption ≠
        (uisoLoadConfig (some text) Buffers.zero).toOption := by
  refine ⟨_, _, documentText_render hold, documentText_render hnew, fun hsame => hbyte ?_⟩
  rw [uisoLoadConfig_document (documentText_render hold),
    uisoLoadConfig_document (documentText_render hnew)] at hsame
  rw [hsame]

theorem frame_adds (L : Section) (key : List UInt8) (value : Value) :
    (frame L .nil).Adds key value (frame L (.cons key value .nil)) (framePath L)
      (frameIndex L) := by
  cases L with
  | wifi | lwm2m | ntp => exact .inside (.object .here)
  | psk => exact .inside (.object (.inside (.object .here)))
  | root | other => exact .here

theorem frame_valid (L : Section) {ms : Members} (h : ms.Valid) : (frame L ms).Valid := by
  cases L with
  | wifi | lwm2m | ntp => exact ⟨stringText_of_plain (by decide), h, trivial⟩
  | psk =>
      exact ⟨stringText_of_plain (by decide), ⟨stringText_of_plain (by decide), h, trivial⟩,
        trivial⟩
  | root | other => exact h

theorem probe_valid (L : Section) (name : Name) : (probe L name).1.Valid := by
  have hx : StringText (chars "x") := stringText_of_plain (by decide)
  cases L <;> cases name <;>
    first
    | exact hx
    | exact .nil
    | exact ⟨stringText_of_plain (by decide), hx, trivial⟩
    | exact ⟨stringText_of_plain (by decide), ⟨hx, trivial⟩, trivial⟩
    | exact ⟨hx, trivial⟩

theorem frame_inPsk (key : List UInt8) (value : Value) :
    InPsk (documentNodes (frame .psk (.cons key value .nil))) 5 := by
  have hpsk : PskKey (documentNodes (frame .psk (.cons key value .nil))) 3 :=
    ⟨⟨behind_rootKey_iff.mpr ⟨1, _, _, List.mem_cons_self, by decide, rfl⟩, rfl⟩, [], rfl⟩
  refine ⟨not_claimed_of_parent (fun hroot => hpsk.1.1.not_root hroot) rfl, ?_,
    ⟨3, ⟨by decide, hpsk, fun k hlow hhigh hkey => ?_⟩, rfl⟩, rfl⟩
  · -- what the member hangs below is an object, not an array
    rintro ⟨_, ⟨j, ⟨_, harray, _⟩, hparent⟩, _⟩
    cases hparent
    cases harray.2
  · obtain rfl : k = 4 := by omega
    cases hkey.1.2

/-- The member is a member of the section. -/
theorem frame_inSection {L : Section} (hL : L ≠ .other) (key : List UInt8) (value : Value) :
    InSection (documentNodes (frame L (.cons key value .nil))) (frameIndex L + 1) L := by
  cases L with
  | root => exact rootString_iff.mpr ⟨key, value, List.mem_cons_self⟩
  | wifi | lwm2m | ntp =>
      exact ⟨behind_rootKey_iff.mpr ⟨1, _, _, List.mem_cons_self, by decide, rfl⟩, rfl⟩
  | psk => exact frame_inPsk key value
  | other => exact absurd rfl hL

theorem frame_not_keyRead (L : Section) (key : List UInt8) (value : Value) :
    ¬KeyRead (documentNodes (frame L (.cons key value .nil))) (frameIndex L) := by
  intro hkey
  have hstring := hkey.stringAt
  cases L <;> cases hstring

/-- A key that starts with a name of the section makes the probe change its buffer. -/
theorem frame_probe {L : Section} {name : Name} (hname : name ∈ L.names) (rest : List UInt8) :
    ((loadNodes (documentNodes (frame L (.cons (name.chars ++ rest) (probe L name).1 .nil)))
      Buffers.zero).toOption.map fun c => (c (probe L name).2).byte 0) = some 120 := by
  cases L <;> cases name <;> first | rfl | (simp [Section.names] at hname)

theorem frame_empty (L : Section) (slot : Slot) :
    ((loadNodes (documentNodes (frame L .nil)) Buffers.zero).toOption.map
      fun c => (c slot).byte 0) = some 0 := by
  cases L <;> cases slot <;> rfl

theorem frame_not_known {L : Section} {name : Name} (hname : name ∈ L.names) {key : List UInt8}
    (hstarts : name.chars <+: key) (hnew : ¬(L = .root ∧ key = name.chars)) :
    ¬Known (framePath L) key := by
  have hroot : ∀ level ∈ knownLevels, framePath L = level.1.map (fun name => some name.chars) →
      L = .root ∧ level.2 = Section.root.names := by
    cases L with
    | other => cases hname
    | root | wifi | lwm2m | ntp | psk => decide
  have hincomparable : ∀ known ∈ Section.root.names, ∀ name ∈ Section.root.names,
      name.chars <+: known.chars → known = name := by decide
  rintro ⟨level, hlevel, hpath, known, hknown, rfl⟩
  obtain ⟨rfl, hnames⟩ := hroot level hlevel hpath
  rw [hnames] at hknown
  exact hnew ⟨rfl, by rw [hincomparable known hknown name hname hstarts]⟩

/-- The members that are ignored wherever the walk takes them for members of the section are
those whose key starts with none of the section's names; only at the root may the key be the
name itself, since it is then no unknown key. -/
theorem unknown_ignored_iff (L : Section) {key : List UInt8} (hkey : StringText key) :
    IgnoredIn L key ↔
      ∀ name ∈ L.names, name.chars <+: key → L = .root ∧ key = name.chars := by
  constructor
  · intro h name hname hstarts
    by_contra hnew
    have hvalid : (Members.cons key (probe L name).1 .nil).Valid :=
      ⟨hkey, probe_valid L name, trivial⟩
    have hother : L ≠ .other := by
      rintro rfl
      cases hname
    have hempty : Members.nil.Valid := trivial
    have hbyte : ((loadNodes (documentNodes (frame L (.cons key (probe L name).1 .nil)))
        Buffers.zero).toOption.map fun c => (c (probe L name).2).byte 0) = some 120 := by
      obtain ⟨rest, rfl⟩ := hstarts
      exact frame_probe hname rest
    obtain ⟨text, text', hold, hnew', hdiffer⟩ := texts_differ (frame_valid L hempty)
      (frame_valid L hvalid) (probe L name).2 (by rw [hbyte, frame_empty]; decide)
    exact hdiffer (h _ _ _ _ _ text text' Buffers.zero (frame_adds L key (probe L name).1)
      (frame_not_known hname hstarts hnew) hold hnew' (frame_inSection hother _ _)
      (frame_not_keyRead L _ _))
  · intro h value ms ms' path m text text' c hadds hknown hold hnew hsection hplace
    rw [uisoLoadConfig_document hold, uisoLoadConfig_document hnew]
    refine loadNodes_added hadds hplace (fun L' hL' name hname hstarts => ?_) c
    obtain rfl := hsection.unique hL'
    obtain ⟨rfl, rfl⟩ := h name hname hstarts
    exact hknown ⟨([], Section.root.names), by decide, hadds.path_of_rootString hsection,
      name, hname, rfl⟩

theorem unknown_ignored_iff_owner :
    IgnoredIn .wifi (chars "owner") ∧ ¬IgnoredIn .wifi (chars "ssid2") :=
  ⟨(unknown_ignored_iff .wifi (stringText_of_plain (by decide))).mpr (by decide),
    fun h => absurd ((unknown_ignored_iff .wifi (stringText_of_plain (by decide))).mp h)
      (by decide)⟩

/-- A network's name. -/
def ssidDocument : Members :=
  .cons (chars "wifi") (.object (.cons (chars "ssid") (.string (chars "home")) .nil)) .nil

/-- With a member `ssid2` behind it. -/
def ssid2Document : Members :=
  .cons (chars "wifi") (.object (.cons (chars "ssid") (.string (chars "home"))
    (.cons (chars "ssid2") (.string (chars "x")) .nil))) .nil

/-- Not every unknown member is ignored: `ssid2` is read as `ssid`, and the network's name
becomes a mixture of both values. -/
theorem ssid2_is_not_ignored :
    ¬∀ (key : List UInt8) (value : Value) (ms ms' : Members) (path : Path) (m : Nat)
      (text text' : List UInt8) (c : Buffers), ms.Adds key value ms' path m →
      ¬Known path key → DocumentText ms text → DocumentText ms' text' →
      (uisoLoadConfig (some text') c).toOption = (uisoLoadConfig (some text) c).toOption := by
  intro h
  have hold : ssidDocument.Valid := by
    simp only [ssidDocument, Members.Valid, Value.Valid, and_true]
    refine ⟨?_, ?_, ?_⟩ <;> exact stringText_of_plain (by decide)
  have hnew : ssid2Document.Valid := by
    simp only [ssid2Document, Members.Valid, Value.Valid, and_true]
    refine ⟨?_, ?_, ?_, ?_, ?_⟩ <;> exact stringText_of_plain (by decide)
  have hknown : ¬Known [some (chars "wifi")] (chars "ssid2") := by
    unfold Known
    decide
  obtain ⟨text, text', htext, htext', hdiffer⟩ := texts_differ hold hnew .wifiSsid (by decide)
  exact hdiffer (h _ _ _ _ _ _ _ _ _ (.inside (.object (.later .here))) hknown htext htext')

/-- A name in an array, and a member behind the array. -/
def elementDocument : Members :=
  .cons (chars "wifi") (.array (.cons (.string (chars "ssid")) .nil))
    (.cons (chars "a") (.string []) .nil)

/-- With a member in between. -/
def betweenDocument : Members :=
  .cons (chars "wifi") (.array (.cons (.string (chars "ssid")) .nil))
    (.cons (chars "b") (.string []) (.cons (chars "a") (.string []) .nil))

/-- A key that starts with no name at all may be read, too: behind a string in an array that is
taken for a key it becomes the value. -/
theorem key_behind_element_is_read :
    ∃ value m text text', elementDocument.Adds (chars "b") value betweenDocument [] m ∧
      KeyRead (documentNodes betweenDocument) m ∧
      DocumentText elementDocument text ∧ DocumentText betweenDocument text' ∧
      (uisoLoadConfig (some text') Buffers.zero).toOption ≠
        (uisoLoadConfig (some text) Buffers.zero).toOption := by
  have hold : elementDocument.Valid := by
    simp only [elementDocument, Members.Valid, Value.Valid, Elements.Valid, and_true]
    exact ⟨stringText_of_plain (by decide), stringText_of_plain (by decide),
      stringText_of_plain (by decide), .nil⟩
  have hnew : betweenDocument.Valid := by
    simp only [betweenDocument, Members.Valid, Value.Valid, Elements.Valid, and_true]
    exact ⟨stringText_of_plain (by decide), stringText_of_plain (by decide),
      stringText_of_plain (by decide), .nil, stringText_of_plain (by decide), .nil⟩
  have hread : KeyRead (documentNodes betweenDocument) 3 :=
    .inl ⟨behind_rootKey_iff.mpr ⟨1, _, _, List.mem_cons_self, by decide, rfl⟩, rfl⟩
  obtain ⟨text, text', htext, htext', hdiffer⟩ := texts_differ hold hnew .wifiSsid (by decide)
  exact ⟨_, 3, text, text', .later .here, hread, htext, htext', hdiffer⟩

end Uiso.Config
