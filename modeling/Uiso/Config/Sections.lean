/-
  Config/Sections.lean --- what the walk of `uiso_load_config` takes each token for.

  The walk keeps the index of the last key of each kind it has seen.  This file says the
  same about the token array alone: `InWifi nodes i` holds of a string token `i` whose
  parent is the token right behind the last `wifi` key before `i`, and so on for every
  branch of the walk.  `Reflects` connects the two, and `loadStep_effect` says what one
  token does in these terms.

  From it come the two results every file has.  The walk ends without a fault precisely
  if no key is the last token and every URL fits (`loadNodes_ok_iff`), and a buffer then
  holds, position by position, the last string stored that reaches the position
  (`loadNodes_settled`).
-/
import Uiso.Config.Loader

set_option autoImplicit false

namespace Uiso.Config

open Uiso.Foundation

/-! ## The last key before a token -/

/-- `j` is the last place before `i` with the property `K`. -/
def Latest (K : Nat → Prop) (i j : Nat) : Prop := j < i ∧ K j ∧ ∀ k, j < k → k < i → ¬K k

/-- `key` is the last place before `i` with the property `K`, if there is one. -/
def IsLatest (K : Nat → Prop) (i : Nat) : Option Nat → Prop
  | none => ∀ j, j < i → ¬K j
  | some j => Latest K i j

theorem isLatest_zero (K : Nat → Prop) : IsLatest K 0 none := by
  intro j hj
  omega

theorem isLatest_succ_self {K : Nat → Prop} {i : Nat} (h : K i) : IsLatest K (i + 1) (some i) :=
  ⟨Nat.lt_succ_self i, h, fun k hlow hhigh => by omega⟩

/-- The last place itself, if it has the property. -/
theorem IsLatest.eq_of_last {K : Nat → Prop} {i : Nat} {key : Option Nat}
    (h : IsLatest K (i + 1) key) (hi : K i) : key = some i := by
  cases key with
  | none => exact absurd hi (h i (Nat.lt_succ_self i))
  | some j =>
      obtain ⟨hlt, _, hnone⟩ := h
      rcases Nat.lt_succ_iff_lt_or_eq.mp hlt with hji | rfl
      · exact absurd hi (hnone i hji (Nat.lt_succ_self i))
      · rfl

theorem IsLatest.succ {K : Nat → Prop} {i : Nat} {key : Option Nat} (h : IsLatest K i key)
    (hi : ¬K i) : IsLatest K (i + 1) key := by
  cases key with
  | none =>
      intro j hj
      rcases Nat.lt_succ_iff_lt_or_eq.mp hj with hlt | rfl
      · exact h j hlt
      · exact hi
  | some j =>
      obtain ⟨hlt, hK, hnone⟩ := h
      refine ⟨by omega, hK, fun k hlow hhigh => ?_⟩
      rcases Nat.lt_succ_iff_lt_or_eq.mp hhigh with hk | rfl
      · exact hnone k hlow hk
      · exact hi

theorem Latest.unique {K : Nat → Prop} {i j k : Nat} (hj : Latest K i j) (hk : Latest K i k) :
    j = k := by
  obtain ⟨hji, hKj, hnonej⟩ := hj
  obtain ⟨hki, hKk, hnonek⟩ := hk
  rcases Nat.lt_trichotomy j k with hlt | heq | hgt
  · exact absurd hKk (hnonej k hlt hki)
  · exact heq
  · exact absurd hKj (hnonek j hgt hji)

/-! ## Sections -/

section Sections

variable (nodes : List Node)

/-- The type of node `i`. -/
def typeAt (i : Nat) : Option TokenType := (nodes[i]?).map Node.type
/-- The parent link of node `i`. -/
def parentAt (i : Nat) : Option Nat := (nodes[i]?).bind Node.parent
/-- The characters of node `i`. -/
def textAt (i : Nat) : List UInt8 := ((nodes[i]?).map Node.text).getD []

/-- Node `i` is a string. -/
def StringAt (i : Nat) : Prop := typeAt nodes i = some .string
/-- Node `i` starts with a name. -/
def Starts (name : Name) (i : Nat) : Prop := name.chars <+: textAt nodes i

/-- The parent of `i` is the token right behind the last `K` before `i`. -/
def Behind (K : Nat → Prop) (i : Nat) : Prop :=
  ∃ j, Latest K i j ∧ parentAt nodes i = some (j + 1)
/-- The parent of `i` is the last `K` before `i`. -/
def Below (K : Nat → Prop) (i : Nat) : Prop :=
  ∃ j, Latest K i j ∧ parentAt nodes i = some j

/-- A string right below the first token. -/
def RootString (i : Nat) : Prop := parentAt nodes i = some 0 ∧ StringAt nodes i
/-- A string right below the first token that starts with a section's name. -/
def RootKey (name : Name) (i : Nat) : Prop := RootString nodes i ∧ Starts nodes name i

/-- A string taken for a key of the `wifi` section. -/
def InWifi (i : Nat) : Prop := Behind nodes (RootKey nodes .wifi) i ∧ StringAt nodes i
/-- A string taken for a key of the `lwm2m` section. -/
def InLwm2m (i : Nat) : Prop := Behind nodes (RootKey nodes .lwm2m) i ∧ StringAt nodes i
/-- A string taken for a key of the `ntp` section. -/
def InNtp (i : Nat) : Prop := Behind nodes (RootKey nodes .ntp) i ∧ StringAt nodes i

/-- A string one of the first four branches takes. -/
def Claimed (i : Nat) : Prop :=
  RootString nodes i ∨ InWifi nodes i ∨ InLwm2m nodes i ∨ InNtp nodes i

/-- A key of the `lwm2m` section that starts with `psk`. -/
def PskKey (i : Nat) : Prop := InLwm2m nodes i ∧ Starts nodes .psk i
/-- A key of the `ntp` section that starts with `url`. -/
def UrlKey (i : Nat) : Prop := InNtp nodes i ∧ Starts nodes .url i
/-- An array below such a key. -/
def UrlArray (i : Nat) : Prop :=
  Below nodes (UrlKey nodes) i ∧ typeAt nodes i = some .array
/-- A string in such an array. -/
def UrlEntry (i : Nat) : Prop :=
  ¬Claimed nodes i ∧ Below nodes (UrlArray nodes) i ∧ StringAt nodes i
/-- A string taken for a key of the `lwm2m.psk` section. -/
def InPsk (i : Nat) : Prop :=
  ¬Claimed nodes i ∧ ¬UrlEntry nodes i ∧ Behind nodes (PskKey nodes) i ∧ StringAt nodes i

/-- A string whose next token is read as its value. -/
def KeyRead (i : Nat) : Prop := InWifi nodes i ∨ InLwm2m nodes i ∨ InPsk nodes i

/-- A string that selects a buffer: a key of its section, or a URL. -/
def Selects : Slot → Nat → Prop
  | .wifiSsid, i => InWifi nodes i ∧ Starts nodes .ssid i
  | .wifiKey, i => InWifi nodes i ∧ Starts nodes .key i
  | .lwm2mUri, i => InLwm2m nodes i ∧ Starts nodes .uri i
  | .lwm2mPskId, i => InPsk nodes i ∧ Starts nodes .id i
  | .lwm2mPskKey, i => InPsk nodes i ∧ Starts nodes .key i
  | .ntpUrl, i => UrlEntry nodes i

/-- The token that is copied to the buffer a token selects. -/
def valueIndex : Slot → Nat → Nat
  | .ntpUrl, i => i
  | _, i => i + 1

/-- Token `i` makes the walk copy a string to the buffer. -/
def Stores (slot : Slot) (i : Nat) : Prop :=
  Selects nodes slot i ∧ StringAt nodes (valueIndex slot i)

/-- The string that is copied. -/
def storedText (slot : Slot) (i : Nat) : List UInt8 := textAt nodes (valueIndex slot i)

end Sections

variable {nodes : List Node}

/-! ## Exclusion -/

/-- A token does not start with two names none of which starts with the other. -/
theorem Starts.exclusive {a b : Name} {i : Nat} (ha : Starts nodes a i) (hb : Starts nodes b i)
    (hab : ¬a.chars <+: b.chars) (hba : ¬b.chars <+: a.chars) : False := by
  rcases List.prefix_or_prefix_of_prefix ha hb with h | h
  · exact hab h
  · exact hba h

theorem Behind.same {K L : Nat → Prop} {i : Nat} (hK : Behind nodes K i)
    (hL : Behind nodes L i) : ∃ j, K j ∧ L j := by
  obtain ⟨j, ⟨_, hj, _⟩, hparent⟩ := hK
  obtain ⟨k, ⟨_, hk, _⟩, hparent'⟩ := hL
  have hjk : j = k := by
    rw [hparent] at hparent'
    simpa using hparent'
  exact ⟨j, hj, hjk ▸ hk⟩

theorem Behind.not_root {K : Nat → Prop} {i : Nat} (hK : Behind nodes K i) :
    ¬RootString nodes i := by
  rintro ⟨hroot, _⟩
  obtain ⟨j, _, hparent⟩ := hK
  rw [hparent] at hroot
  simp at hroot

theorem not_inWifi_inLwm2m {i : Nat} (hw : InWifi nodes i) (hl : InLwm2m nodes i) : False := by
  obtain ⟨j, hj, hj'⟩ := hw.1.same hl.1
  exact hj.2.exclusive hj'.2 (by decide) (by decide)

theorem not_inWifi_inNtp {i : Nat} (hw : InWifi nodes i) (hn : InNtp nodes i) : False := by
  obtain ⟨j, hj, hj'⟩ := hw.1.same hn.1
  exact hj.2.exclusive hj'.2 (by decide) (by decide)

theorem not_inLwm2m_inNtp {i : Nat} (hl : InLwm2m nodes i) (hn : InNtp nodes i) : False := by
  obtain ⟨j, hj, hj'⟩ := hl.1.same hn.1
  exact hj.2.exclusive hj'.2 (by decide) (by decide)

theorem StringAt.lt_length {i : Nat} (h : StringAt nodes i) : i < nodes.length := by
  by_contra hout
  simp [StringAt, typeAt, List.getElem?_eq_none_iff.mpr (Nat.le_of_not_lt hout)] at h

theorem KeyRead.stringAt {i : Nat} (h : KeyRead nodes i) : StringAt nodes i := by
  rcases h with h | h | h
  exacts [h.2, h.2, h.2.2.2]

theorem KeyRead.not_urlEntry {i : Nat} (h : KeyRead nodes i) : ¬UrlEntry nodes i := by
  rintro hurl
  rcases h with h | h | h
  · exact hurl.1 (.inr (.inl h))
  · exact hurl.1 (.inr (.inr (.inl h)))
  · exact h.2.1 hurl

/-- A token selects one buffer at most. -/
theorem Selects.unique {a b : Slot} {i : Nat} (ha : Selects nodes a i)
    (hb : Selects nodes b i) : a = b := by
  have hpsk : InPsk nodes i → ¬InWifi nodes i ∧ ¬InLwm2m nodes i := fun h =>
    ⟨fun h' => h.1 (.inr (.inl h')), fun h' => h.1 (.inr (.inr (.inl h')))⟩
  have hwifi : InWifi nodes i → ¬InLwm2m nodes i := not_inWifi_inLwm2m
  have hurl : KeyRead nodes i → ¬UrlEntry nodes i := KeyRead.not_urlEntry
  have hssid : Starts nodes .ssid i → ¬Starts nodes .key i := fun h h' =>
    h.exclusive h' (by decide) (by decide)
  have hid : Starts nodes .id i → ¬Starts nodes .key i := fun h h' =>
    h.exclusive h' (by decide) (by decide)
  cases a <;> cases b <;> simp only [Selects, KeyRead] at ha hb hurl <;> grind

/-! ## The walk's locals -/

/-- The locals of the walk before token `i` are the last keys before `i`. -/
structure Reflects (nodes : List Node) (i : Nat) (st : LoadState) : Prop where
  wifiKey : IsLatest (RootKey nodes .wifi) i st.wifiKey
  lwm2mKey : IsLatest (RootKey nodes .lwm2m) i st.lwm2mKey
  ntpKey : IsLatest (RootKey nodes .ntp) i st.ntpKey
  lwm2mPskKey : IsLatest (PskKey nodes) i st.lwm2mPskKey
  ntpUrlKey : IsLatest (UrlKey nodes) i st.ntpUrlKey
  ntpUrlArray : IsLatest (UrlArray nodes) i st.ntpUrlArray

theorem behind_iff {K : Nat → Prop} {i : Nat} {key : Option Nat} (h : IsLatest K i key) :
    behind key (parentAt nodes i) = true ↔ Behind nodes K i := by
  cases key with
  | none =>
      refine iff_of_false (by simp [behind]) ?_
      rintro ⟨j, ⟨hlt, hK, _⟩, _⟩
      exact h j hlt hK
  | some k =>
      constructor
      · intro hbehind
        refine ⟨k, h, ?_⟩
        cases hparent : parentAt nodes i with
        | none => simp [behind, hparent] at hbehind
        | some q =>
            have hq : k + 1 = q := by simpa [behind, hparent] using hbehind
            rw [hq]
      · rintro ⟨j, hj, hparent⟩
        rw [hparent, h.unique hj]
        simp [behind]

theorem atKey_iff {K : Nat → Prop} {i : Nat} {key : Option Nat} (h : IsLatest K i key) :
    atKey key (parentAt nodes i) = true ↔ Below nodes K i := by
  cases key with
  | none =>
      refine iff_of_false (by simp [atKey]) ?_
      rintro ⟨j, ⟨hlt, hK, _⟩, _⟩
      exact h j hlt hK
  | some k =>
      constructor
      · intro hat
        refine ⟨k, h, ?_⟩
        cases hparent : parentAt nodes i with
        | none => simp [atKey, hparent] at hat
        | some q =>
            have hq : k = q := by simpa [atKey, hparent] using hat
            rw [hq]
      · rintro ⟨j, hj, hparent⟩
        rw [hparent, h.unique hj]
        simp [atKey]

theorem Reflects.start (nodes : List Node) (c : Buffers) : Reflects nodes 0 (.start c) := by
  constructor <;> exact isLatest_zero _

theorem not_urlArray_of_stringAt {i : Nat} (hstring : StringAt nodes i) : ¬UrlArray nodes i := by
  rintro ⟨_, harray⟩
  rw [StringAt, harray] at hstring
  cases hstring

/-- The locals behind a string right below the first token: at most those of the root keys
have changed. -/
theorem Reflects.root {i : Nat} {st : LoadState} (h : Reflects nodes i st)
    (hroot : RootString nodes i) {wifiKey lwm2mKey ntpKey : Option Nat}
    (hwifi : IsLatest (RootKey nodes .wifi) (i + 1) wifiKey)
    (hlwm2m : IsLatest (RootKey nodes .lwm2m) (i + 1) lwm2mKey)
    (hntp : IsLatest (RootKey nodes .ntp) (i + 1) ntpKey) :
    Reflects nodes (i + 1)
      { st with wifiKey := wifiKey, lwm2mKey := lwm2mKey, ntpKey := ntpKey } :=
  ⟨hwifi, hlwm2m, hntp, h.lwm2mPskKey.succ fun hk => hk.1.1.not_root hroot,
    h.ntpUrlKey.succ fun hk => hk.1.1.not_root hroot,
    h.ntpUrlArray.succ (not_urlArray_of_stringAt hroot.2)⟩

/-- The locals behind any other token: those of the root keys have not changed. -/
theorem Reflects.inner {i : Nat} {st : LoadState} (h : Reflects nodes i st)
    (hroot : ¬RootString nodes i) {pskKey urlKey urlArray : Option Nat}
    (hpsk : IsLatest (PskKey nodes) (i + 1) pskKey)
    (hurl : IsLatest (UrlKey nodes) (i + 1) urlKey)
    (harray : IsLatest (UrlArray nodes) (i + 1) urlArray) (c : Buffers) :
    Reflects nodes (i + 1)
      ⟨st.wifiKey, st.lwm2mKey, st.ntpKey, pskKey, urlKey, urlArray, c⟩ :=
  ⟨h.wifiKey.succ fun hk => hroot hk.1, h.lwm2mKey.succ fun hk => hroot hk.1,
    h.ntpKey.succ fun hk => hroot hk.1, hpsk, hurl, harray⟩

/-- The locals behind a token that none of the first four branches takes and that is no array
of URLs: nothing has changed. -/
theorem Reflects.unclaimed {i : Nat} {st : LoadState} (h : Reflects nodes i st)
    (hunclaimed : ¬Claimed nodes i) (harray : ¬UrlArray nodes i) (c : Buffers) :
    Reflects nodes (i + 1) { st with config := c } :=
  h.inner (fun hroot => hunclaimed (.inl hroot))
    (h.lwm2mPskKey.succ fun hk => hunclaimed (.inr (.inr (.inl hk.1))))
    (h.ntpUrlKey.succ fun hk => hunclaimed (.inr (.inr (.inr hk.1))))
    (h.ntpUrlArray.succ harray) c

/-! ## One token -/

/-- Token `i` is no key at the end of the array and no URL that is too long. -/
structure SafeAt (nodes : List Node) (i : Nat) : Prop where
  next : KeyRead nodes i → i + 1 < nodes.length
  fits : UrlEntry nodes i → (textAt nodes i).length ≤ Slot.ntpUrl.capacity

/-- Token `i` is one of the two, and the fault says which. -/
inductive Faulty (nodes : List Node) (i : Nat) : Fault → Prop where
  | dangling (key : KeyRead nodes i) (last : nodes.length ≤ i + 1) :
      Faulty nodes i (.tokenIndex (i + 1))
  | overflow (entry : UrlEntry nodes i)
      (long : Slot.ntpUrl.capacity < (textAt nodes i).length) :
      Faulty nodes i (.overflow .ntpUrl)

theorem Faulty.not_safe {i : Nat} {fault : Fault} (h : Faulty nodes i fault) :
    ¬SafeAt nodes i := by
  intro hsafe
  cases h with
  | dangling hkey hlast => exact absurd (hsafe.next hkey) (by omega)
  | overflow hentry hlong => exact absurd (hsafe.fits hentry) (by omega)

/-- What token `i` does to the buffers. -/
inductive StepEffect (nodes : List Node) (i : Nat) (c : Buffers) :
    Except Fault Buffers → Prop where
  | fault (fault : Fault) (faulty : Faulty nodes i fault) : StepEffect nodes i c (.error fault)
  | silent (safe : SafeAt nodes i) (none : ∀ slot, ¬Stores nodes slot i) :
      StepEffect nodes i c (.ok c)
  | stored (safe : SafeAt nodes i) (slot : Slot) (stores : Stores nodes slot i) :
      StepEffect nodes i c
        (.ok (c.write slot ((storedText nodes slot i).take slot.capacity)))

theorem StepEffect.safeAt {i : Nat} {c c' : Buffers} (h : StepEffect nodes i c (.ok c')) :
    SafeAt nodes i := by
  cases h with
  | silent hsafe => exact hsafe
  | stored hsafe => exact hsafe

theorem stringAt_of_getElem? {i : Nat} {t : Node} (h : nodes[i]? = some t) :
    StringAt nodes i ↔ t.type = .string := by
  simp [StringAt, typeAt, h]

theorem startsWith_iff {i : Nat} {t : Node} (h : nodes[i]? = some t) (name : Name) :
    nodeReader.startsWith t name = true ↔ Starts nodes name i := by
  simp [nodeReader, Starts, textAt, h]

/-- A token that is neither a key nor a URL is silent. -/
theorem StepEffect.of_quiet {i : Nat} {c : Buffers} (hkey : ¬KeyRead nodes i)
    (hurl : ¬UrlEntry nodes i) : StepEffect nodes i c (.ok c) := by
  refine .silent ⟨fun h => absurd h hkey, fun h => absurd h hurl⟩ ?_
  rintro slot ⟨hselects, _⟩
  cases slot
  case ntpUrl => exact hurl hselects
  case wifiSsid | wifiKey => exact hkey (.inl hselects.1)
  case lwm2mUri => exact hkey (.inr (.inl hselects.1))
  case lwm2mPskId | lwm2mPskKey => exact hkey (.inr (.inr hselects.1))

/-- `dest` is the buffer token `i` selects by its name, with its size. -/
structure IsDest (nodes : List Node) (i : Nat) (dest : Option (Slot × Nat)) : Prop where
  none : dest = none → ∀ slot, ¬Selects nodes slot i
  some : ∀ slot len, dest = some (slot, len) →
    len = slot.capacity ∧ slot ≠ .ntpUrl ∧ Selects nodes slot i

/-- A destination that is chosen by one of two names. -/
theorem isDest_of_names {i : Nat} {t : Node} (ht : nodes[i]? = some t) {a b : Name}
    {first second : Slot} (hfirst : first ≠ .ntpUrl) (hsecond : second ≠ .ntpUrl)
    (ha : Starts nodes a i → Selects nodes first i)
    (hb : Starts nodes b i → Selects nodes second i)
    (hnone : ∀ slot, Selects nodes slot i → Starts nodes a i ∨ Starts nodes b i) :
    IsDest nodes i
      (if nodeReader.startsWith t a then some (first, first.capacity)
       else if nodeReader.startsWith t b then some (second, second.capacity) else none) := by
  have hstarts := startsWith_iff ht
  split_ifs with hsa hsb
  · refine ⟨by simp, fun slot len hdest => ?_⟩
    cases hdest
    exact ⟨rfl, hfirst, ha ((hstarts _).mp hsa)⟩
  · refine ⟨by simp, fun slot len hdest => ?_⟩
    cases hdest
    exact ⟨rfl, hsecond, hb ((hstarts _).mp hsb)⟩
  · refine ⟨fun _ slot hselects => ?_, by simp⟩
    rcases hnone slot hselects with h | h
    · exact hsa ((hstarts _).mpr h)
    · exact hsb ((hstarts _).mpr h)

theorem wifiDest_isDest {i : Nat} {t : Node} (ht : nodes[i]? = some t) (h : InWifi nodes i) :
    IsDest nodes i (wifiDest nodeReader t) := by
  refine isDest_of_names ht (by simp) (by simp) (fun hs => ⟨h, hs⟩) (fun hs => ⟨h, hs⟩) ?_
  intro slot hselects
  cases slot
  case wifiSsid => exact .inl hselects.2
  case wifiKey => exact .inr hselects.2
  case lwm2mUri => exact (not_inWifi_inLwm2m h hselects.1).elim
  case lwm2mPskId | lwm2mPskKey => exact absurd (.inr (.inl h)) hselects.1.1
  case ntpUrl => exact absurd (.inr (.inl h)) hselects.1

theorem lwm2mDest_isDest {i : Nat} {t : Node} (ht : nodes[i]? = some t)
    (h : InLwm2m nodes i) : IsDest nodes i (lwm2mDest nodeReader t) := by
  have hstarts := startsWith_iff ht
  unfold lwm2mDest
  by_cases huri : Starts nodes .uri i
  · rw [if_pos ((hstarts _).mpr huri)]
    refine ⟨by simp, fun slot len hdest => ?_⟩
    cases hdest
    exact ⟨rfl, by simp, h, huri⟩
  · rw [if_neg (mt (hstarts _).mp huri)]
    refine ⟨fun _ slot hselects => ?_, by simp⟩
    cases slot
    case wifiSsid | wifiKey => exact not_inWifi_inLwm2m hselects.1 h
    case lwm2mUri => exact huri hselects.2
    case lwm2mPskId | lwm2mPskKey => exact hselects.1.1 (.inr (.inr (.inl h)))
    case ntpUrl => exact hselects.1 (.inr (.inr (.inl h)))

theorem pskDest_isDest {i : Nat} {t : Node} (ht : nodes[i]? = some t) (h : InPsk nodes i) :
    IsDest nodes i (pskDest nodeReader t) := by
  refine isDest_of_names ht (by simp) (by simp) (fun hs => ⟨h, hs⟩) (fun hs => ⟨h, hs⟩) ?_
  intro slot hselects
  cases slot
  case wifiSsid | wifiKey => exact absurd (.inr (.inl hselects.1)) h.1
  case lwm2mUri => exact absurd (.inr (.inr (.inl hselects.1))) h.1
  case lwm2mPskId => exact .inl hselects.2
  case lwm2mPskKey => exact .inr hselects.2
  case ntpUrl => exact absurd hselects h.2.1

/-- A copy that ends well changes nothing but the buffers. -/
theorem map_config_eq {r : Except Fault Buffers} {st st' : LoadState}
    (h : r.map ({ st with config := · }) = .ok st') : st' = { st with config := st'.config } := by
  cases r with
  | error fault => cases h
  | ok c =>
      cases h
      rfl

theorem copyNext_locals {i : Nat} {next : Option Node} {dest : Option (Slot × Nat)}
    {st st' : LoadState} (h : copyNext nodeReader i next dest st = .ok st') :
    st' = { st with config := st'.config } := by
  cases next with
  | none => cases h
  | some value =>
      cases dest with
      | none =>
          cases h
          rfl
      | some dest =>
          by_cases hstring : nodeReader.type value = .string
          · simp only [copyNext, if_pos hstring] at h
            exact map_config_eq h
          · simp only [copyNext, if_neg hstring] at h
            cases h
            rfl

/-- The copy of a key's value. -/
theorem copyNext_effect {i : Nat} {dest : Option (Slot × Nat)} (st : LoadState)
    (hkey : KeyRead nodes i) (hdest : IsDest nodes i dest) :
    StepEffect nodes i st.config
      ((copyNext nodeReader i nodes[i + 1]? dest st).map (·.config)) := by
  have hurl := hkey.not_urlEntry
  cases hnext : nodes[i + 1]? with
  | none =>
      have hlast : nodes.length ≤ i + 1 := List.getElem?_eq_none_iff.mp hnext
      exact .fault _ (.dangling hkey hlast)
  | some value =>
      have hlt : i + 1 < nodes.length := (List.getElem?_eq_some_iff.mp hnext).1
      have hsafe : SafeAt nodes i := ⟨fun _ => hlt, fun h => absurd h hurl⟩
      cases dest with
      | none => exact .silent hsafe fun slot h => hdest.none rfl slot h.1
      | some dest =>
          obtain ⟨slot, len⟩ := dest
          obtain ⟨rfl, hslot, hselects⟩ := hdest.some slot len rfl
          have hindex : valueIndex slot i = i + 1 := by
            cases slot <;> first | rfl | exact absurd rfl hslot
          by_cases hstring : value.type = .string
          · have htext : textAt nodes (i + 1) = value.text := by simp [textAt, hnext]
            have hstores : Stores nodes slot i := by
              refine ⟨hselects, ?_⟩
              rw [hindex, stringAt_of_getElem? hnext]
              exact hstring
            -- as much of the value as fits, and never more than the buffer holds
            have hcopy : copyNext nodeReader i (some value) (some (slot, slot.capacity)) st =
                .ok { st with
                  config := st.config.write slot (value.text.take slot.capacity) } := by
              by_cases hlong : slot.capacity < value.text.length
              · simp [copyNext, nodeReader, hstring, strncpyTo, hlong, Except.map]
              · have htake : value.text.take slot.capacity = value.text :=
                  List.take_of_length_le (by omega)
                simp [copyNext, nodeReader, hstring, strncpyTo, hlong, htake, Except.map]
            have heffect := StepEffect.stored (c := st.config) hsafe slot hstores
            rw [hcopy]
            rwa [storedText, hindex, htext] at heffect
          · have hcopy : copyNext nodeReader i (some value) (some (slot, slot.capacity)) st =
                .ok st := by
              simp [copyNext, nodeReader, hstring]
            rw [hcopy]
            refine .silent hsafe ?_
            rintro other ⟨hselects', hstored⟩
            rw [hselects'.unique hselects, hindex, stringAt_of_getElem? hnext] at hstored
            exact hstring hstored

/-! ## The branches of the walk -/

/-- What the body of the loop does with token `i`, as a function of the token behind it: one
case for every way through its branches. -/
inductive StepCase (nodes : List Node) (i : Nat) (t : Node) (st : LoadState) :
    (Option Node → Except Fault LoadState) → Prop where
  | rootWifi (root : RootString nodes i) (starts : Starts nodes .wifi i) :
      StepCase nodes i t st fun _ => .ok { st with wifiKey := some i }
  | rootLwm2m (root : RootString nodes i) (starts : Starts nodes .lwm2m i) :
      StepCase nodes i t st fun _ => .ok { st with lwm2mKey := some i }
  | rootNtp (root : RootString nodes i) (starts : Starts nodes .ntp i) :
      StepCase nodes i t st fun _ => .ok { st with ntpKey := some i }
  | rootOther (root : RootString nodes i)
      (none : ∀ name ∈ [Name.wifi, Name.lwm2m, Name.ntp], ¬Starts nodes name i) :
      StepCase nodes i t st fun _ => .ok st
  | wifi (key : InWifi nodes i) :
      StepCase nodes i t st fun next => copyNext nodeReader i next (wifiDest nodeReader t) st
  | lwm2mPsk (key : InLwm2m nodes i) (starts : Starts nodes .psk i) :
      StepCase nodes i t st fun next =>
        copyNext nodeReader i next (lwm2mDest nodeReader t) { st with lwm2mPskKey := some i }
  | lwm2m (key : InLwm2m nodes i) (none : ¬Starts nodes .psk i) :
      StepCase nodes i t st fun next => copyNext nodeReader i next (lwm2mDest nodeReader t) st
  | ntpUrl (key : InNtp nodes i) (starts : Starts nodes .url i) :
      StepCase nodes i t st fun _ => .ok { st with ntpUrlKey := some i }
  | ntp (key : InNtp nodes i) (none : ¬Starts nodes .url i) :
      StepCase nodes i t st fun _ => .ok st
  | urlArray (array : UrlArray nodes i) :
      StepCase nodes i t st fun _ => .ok { st with ntpUrlArray := some i }
  | urlEntry (entry : UrlEntry nodes i) :
      StepCase nodes i t st fun _ =>
        (strncpyTo .ntpUrl t.text.length t.text st.config).map ({ st with config := · })
  | psk (key : InPsk nodes i) :
      StepCase nodes i t st fun next => copyNext nodeReader i next (pskDest nodeReader t) st
  | other (unclaimed : ¬Claimed nodes i) (array : ¬UrlArray nodes i)
      (entry : ¬UrlEntry nodes i) (psk : ¬InPsk nodes i) : StepCase nodes i t st fun _ => .ok st

section Branches

variable {i : Nat} {t : Node} {st : LoadState}

theorem loadStep_case_root (ht : nodes[i]? = some t) (hroot : RootString nodes i) :
    StepCase nodes i t st fun next => loadStep nodeReader i t next st := by
  have hguard : nodeReader.parent t = some 0 ∧ nodeReader.type t = .string := by
    have hparent : parentAt nodes i = nodeReader.parent t := by simp [parentAt, ht, nodeReader]
    exact ⟨hparent ▸ hroot.1, (stringAt_of_getElem? ht).mp hroot.2⟩
  have hstarts := startsWith_iff ht
  simp only [loadStep, hguard, and_self, if_true]
  by_cases hwifi : Starts nodes .wifi i
  · simp only [(hstarts _).mpr hwifi, if_true]
    exact .rootWifi hroot hwifi
  by_cases hlwm2m : Starts nodes .lwm2m i
  · simp only [mt (hstarts _).mp hwifi, (hstarts _).mpr hlwm2m, if_true, Bool.false_eq_true,
      if_false]
    exact .rootLwm2m hroot hlwm2m
  by_cases hntp : Starts nodes .ntp i
  · simp only [mt (hstarts _).mp hwifi, mt (hstarts _).mp hlwm2m, (hstarts _).mpr hntp, if_true,
      Bool.false_eq_true, if_false]
    exact .rootNtp hroot hntp
  · simp only [mt (hstarts _).mp hwifi, mt (hstarts _).mp hlwm2m, mt (hstarts _).mp hntp,
      Bool.false_eq_true, if_false]
    exact .rootOther hroot (by simp [hwifi, hlwm2m, hntp])

/-- Every token goes one of the ways. -/
theorem loadStep_case (h : Reflects nodes i st) (ht : nodes[i]? = some t) :
    StepCase nodes i t st fun next => loadStep nodeReader i t next st := by
  by_cases hroot : RootString nodes i
  · exact loadStep_case_root ht hroot
  have hparent : nodeReader.parent t = parentAt nodes i := by simp [nodeReader, parentAt, ht]
  have htype : ∀ type, nodeReader.type t = type ↔ typeAt nodes i = some type := by
    intro type
    simp [nodeReader, typeAt, ht]
  have hstarts := startsWith_iff ht
  -- the guards of the branches, in the words of the sections
  have hguard : ∀ {K : Nat → Prop} {key : Option Nat}, IsLatest K i key →
      ((behind key (nodeReader.parent t) ∧ nodeReader.type t = .string) ↔
        Behind nodes K i ∧ StringAt nodes i) := by
    intro K key hkey
    rw [hparent, behind_iff hkey, htype]
    rfl
  have hat : ∀ {K : Nat → Prop} {key : Option Nat} {type : TokenType}, IsLatest K i key →
      ((atKey key (nodeReader.parent t) ∧ nodeReader.type t = type) ↔
        Below nodes K i ∧ typeAt nodes i = some type) := by
    intro K key type hkey
    rw [hparent, atKey_iff hkey, htype]
  have hnoroot : ¬(nodeReader.parent t = some 0 ∧ nodeReader.type t = .string) := by
    rw [hparent, htype]
    exact hroot
  simp only [loadStep, if_neg hnoroot]
  by_cases hwifi : InWifi nodes i
  · simp only [if_pos ((hguard h.wifiKey).mpr hwifi)]
    exact .wifi hwifi
  simp only [if_neg (mt (hguard h.wifiKey).mp hwifi)]
  by_cases hlwm2m : InLwm2m nodes i
  · simp only [if_pos ((hguard h.lwm2mKey).mpr hlwm2m)]
    by_cases hpsk : Starts nodes .psk i
    · have huri : ¬Starts nodes .uri i := fun hu => hpsk.exclusive hu (by decide) (by decide)
      simp only [if_pos (And.intro (mt (hstarts .uri).mp huri) ((hstarts .psk).mpr hpsk))]
      exact .lwm2mPsk hlwm2m hpsk
    · simp only [if_neg (fun hg : _ ∧ _ => hpsk ((hstarts .psk).mp hg.2))]
      exact .lwm2m hlwm2m hpsk
  simp only [if_neg (mt (hguard h.lwm2mKey).mp hlwm2m)]
  by_cases hntp : InNtp nodes i
  · simp only [if_pos ((hguard h.ntpKey).mpr hntp)]
    by_cases hurl : Starts nodes .url i
    · simp only [if_pos ((hstarts _).mpr hurl)]
      exact .ntpUrl hntp hurl
    · simp only [if_neg (mt (hstarts _).mp hurl)]
      exact .ntp hntp hurl
  simp only [if_neg (mt (hguard h.ntpKey).mp hntp)]
  have hunclaimed : ¬Claimed nodes i := by
    rintro (hc | hc | hc | hc)
    exacts [hroot hc, hwifi hc, hlwm2m hc, hntp hc]
  by_cases harray : UrlArray nodes i
  · simp only [if_pos ((hat h.ntpUrlKey).mpr harray)]
    exact .urlArray harray
  simp only [if_neg (mt (hat h.ntpUrlKey).mp harray)]
  by_cases hentry : UrlEntry nodes i
  · simp only [if_pos ((hat h.ntpUrlArray).mpr hentry.2)]
    have hcopied : nodeReader.copied t (nodeReader.length t) = t.text := by simp [nodeReader]
    rw [hcopied]
    exact .urlEntry hentry
  simp only [if_neg (fun hg => hentry ⟨hunclaimed, (hat h.ntpUrlArray).mp hg⟩)]
  by_cases hpsk : InPsk nodes i
  · simp only [if_pos ((hguard h.lwm2mPskKey).mpr hpsk.2.2)]
    exact .psk hpsk
  simp only [if_neg (fun hg => hpsk ⟨hunclaimed, hentry, (hguard h.lwm2mPskKey).mp hg⟩)]
  exact .other hunclaimed harray hentry hpsk

/-- Only a string taken for a key makes the walk look at the token behind it. -/
theorem loadStep_next (h : Reflects nodes i st) (ht : nodes[i]? = some t)
    (hkey : ¬KeyRead nodes i) (next next' : Option Node) :
    loadStep nodeReader i t next st = loadStep nodeReader i t next' st := by
  have hcase := loadStep_case h ht
  generalize hf : (fun next => loadStep nodeReader i t next st) = f at hcase
  have hstep : ∀ next, loadStep nodeReader i t next st = f next := congrFun hf
  rw [hstep, hstep]
  cases hcase with
  | wifi hwifi => exact absurd (.inl hwifi) hkey
  | lwm2mPsk hlwm2m | lwm2m hlwm2m => exact absurd (.inr (.inl hlwm2m)) hkey
  | psk hpsk => exact absurd (.inr (.inr hpsk)) hkey
  | _ => rfl

/-- A string right below the first token stores nothing. -/
theorem RootString.quiet (h : RootString nodes i) (c : Buffers) :
    StepEffect nodes i c (.ok c) := by
  refine .of_quiet ?_ (fun hurl => hurl.1 (.inl h))
  rintro (hkey | hkey | hkey)
  · exact hkey.1.not_root h
  · exact hkey.1.not_root h
  · exact hkey.1 (.inl h)

/-- A key of the `ntp` section stores nothing. -/
theorem InNtp.quiet (h : InNtp nodes i) (c : Buffers) : StepEffect nodes i c (.ok c) := by
  refine .of_quiet ?_ (fun hurl => hurl.1 (.inr (.inr (.inr h))))
  rintro (hkey | hkey | hkey)
  · exact not_inWifi_inNtp hkey h
  · exact not_inLwm2m_inNtp hkey h
  · exact hkey.1 (.inr (.inr (.inr h)))

/-- The copy of a URL, which has no bound. -/
theorem urlEntry_effect (ht : nodes[i]? = some t) (hentry : UrlEntry nodes i) (c : Buffers) :
    StepEffect nodes i c (strncpyTo .ntpUrl t.text.length t.text c) := by
  have htext : textAt nodes i = t.text := by simp [textAt, ht]
  unfold strncpyTo
  split_ifs with hlong
  · exact .fault _ (.overflow hentry (by rwa [htext]))
  · have hsafe : SafeAt nodes i := by
      refine ⟨fun hkey => absurd hentry hkey.not_urlEntry, fun _ => ?_⟩
      rw [htext]
      omega
    have heffect := StepEffect.stored (c := c) hsafe .ntpUrl ⟨hentry, hentry.2.2⟩
    rwa [storedText, valueIndex, htext, List.take_of_length_le (by omega)] at heffect

/-- What every way through the branches does to the buffers. -/
theorem StepCase.effect {f : Option Node → Except Fault LoadState} (ht : nodes[i]? = some t)
    (hcase : StepCase nodes i t st f) :
    StepEffect nodes i st.config ((f nodes[i + 1]?).map (·.config)) := by
  cases hcase with
  | rootWifi hroot | rootLwm2m hroot | rootNtp hroot | rootOther hroot => exact hroot.quiet _
  | wifi hwifi => exact copyNext_effect st (.inl hwifi) (wifiDest_isDest ht hwifi)
  | lwm2mPsk hlwm2m =>
      exact copyNext_effect { st with lwm2mPskKey := some i } (.inr (.inl hlwm2m))
        (lwm2mDest_isDest ht hlwm2m)
  | lwm2m hlwm2m => exact copyNext_effect st (.inr (.inl hlwm2m)) (lwm2mDest_isDest ht hlwm2m)
  | ntpUrl hntp | ntp hntp => exact hntp.quiet _
  | urlArray harray =>
      have hnostring : ¬StringAt nodes i := fun hs => not_urlArray_of_stringAt hs harray
      exact .of_quiet (fun hkey => hnostring hkey.stringAt) (fun hurl => hnostring hurl.2.2)
  | urlEntry hentry =>
      have heffect := urlEntry_effect ht hentry st.config
      cases hcopy : strncpyTo .ntpUrl t.text.length t.text st.config <;>
        simpa [hcopy, Except.map] using heffect
  | psk hpsk => exact copyNext_effect st (.inr (.inr hpsk)) (pskDest_isDest ht hpsk)
  | other hunclaimed harray hentry hpsk =>
      refine .of_quiet ?_ hentry
      rintro (hkey | hkey | hkey)
      exacts [hunclaimed (.inr (.inl hkey)), hunclaimed (.inr (.inr (.inl hkey))), hpsk hkey]

/-- Every way through the branches keeps the locals in step with the array. -/
theorem StepCase.reflects {f : Option Node → Except Fault LoadState} {next : Option Node}
    {st' : LoadState} (h : Reflects nodes i st) (hcase : StepCase nodes i t st f)
    (hst' : f next = .ok st') : Reflects nodes (i + 1) st' := by
  -- a token has one section's name at most
  have hone : ∀ {a b : Name}, ¬a.chars <+: b.chars → ¬b.chars <+: a.chars →
      Starts nodes a i → ¬RootKey nodes b i := by
    intro a b hab hba ha hb
    exact ha.exclusive hb.2 hab hba
  cases hcase with
  | rootWifi hroot hwifi =>
      cases hst'
      exact h.root hroot (isLatest_succ_self ⟨hroot, hwifi⟩)
        (h.lwm2mKey.succ (hone (by decide) (by decide) hwifi))
        (h.ntpKey.succ (hone (by decide) (by decide) hwifi))
  | rootLwm2m hroot hlwm2m =>
      cases hst'
      exact h.root hroot (h.wifiKey.succ (hone (by decide) (by decide) hlwm2m))
        (isLatest_succ_self ⟨hroot, hlwm2m⟩)
        (h.ntpKey.succ (hone (by decide) (by decide) hlwm2m))
  | rootNtp hroot hntp =>
      cases hst'
      exact h.root hroot (h.wifiKey.succ (hone (by decide) (by decide) hntp))
        (h.lwm2mKey.succ (hone (by decide) (by decide) hntp))
        (isLatest_succ_self ⟨hroot, hntp⟩)
  | rootOther hroot hnone =>
      cases hst'
      exact h.root hroot (h.wifiKey.succ fun hk => hnone _ (by simp) hk.2)
        (h.lwm2mKey.succ fun hk => hnone _ (by simp) hk.2)
        (h.ntpKey.succ fun hk => hnone _ (by simp) hk.2)
  | wifi hwifi =>
      rw [copyNext_locals hst']
      exact h.inner hwifi.1.not_root (h.lwm2mPskKey.succ fun hk => not_inWifi_inLwm2m hwifi hk.1)
        (h.ntpUrlKey.succ fun hk => not_inWifi_inNtp hwifi hk.1)
        (h.ntpUrlArray.succ (not_urlArray_of_stringAt hwifi.2)) _
  | lwm2mPsk hlwm2m hpsk =>
      rw [copyNext_locals hst']
      exact h.inner hlwm2m.1.not_root (isLatest_succ_self ⟨hlwm2m, hpsk⟩)
        (h.ntpUrlKey.succ fun hk => not_inLwm2m_inNtp hlwm2m hk.1)
        (h.ntpUrlArray.succ (not_urlArray_of_stringAt hlwm2m.2)) _
  | lwm2m hlwm2m hpsk =>
      rw [copyNext_locals hst']
      exact h.inner hlwm2m.1.not_root (h.lwm2mPskKey.succ fun hk => hpsk hk.2)
        (h.ntpUrlKey.succ fun hk => not_inLwm2m_inNtp hlwm2m hk.1)
        (h.ntpUrlArray.succ (not_urlArray_of_stringAt hlwm2m.2)) _
  | ntpUrl hntp hurl =>
      cases hst'
      exact h.inner hntp.1.not_root (h.lwm2mPskKey.succ fun hk => not_inLwm2m_inNtp hk.1 hntp)
        (isLatest_succ_self ⟨hntp, hurl⟩)
        (h.ntpUrlArray.succ (not_urlArray_of_stringAt hntp.2)) _
  | ntp hntp hurl =>
      cases hst'
      exact h.inner hntp.1.not_root (h.lwm2mPskKey.succ fun hk => not_inLwm2m_inNtp hk.1 hntp)
        (h.ntpUrlKey.succ fun hk => hurl hk.2)
        (h.ntpUrlArray.succ (not_urlArray_of_stringAt hntp.2)) _
  | urlArray harray =>
      have hnostring : ¬StringAt nodes i := fun hs => not_urlArray_of_stringAt hs harray
      cases hst'
      exact h.inner (fun hroot => hnostring hroot.2)
        (h.lwm2mPskKey.succ fun hk => hnostring hk.1.2)
        (h.ntpUrlKey.succ fun hk => hnostring hk.1.2) (isLatest_succ_self harray) _
  | urlEntry hentry =>
      rw [map_config_eq hst']
      exact h.unclaimed hentry.1 (not_urlArray_of_stringAt hentry.2.2) _
  | psk hpsk =>
      rw [copyNext_locals hst']
      exact h.unclaimed hpsk.1 (not_urlArray_of_stringAt hpsk.2.2.2) _
  | other hunclaimed harray =>
      cases hst'
      exact h.unclaimed hunclaimed harray _

/-- What the walk does to the buffers at token `i`. -/
theorem loadStep_effect (h : Reflects nodes i st) (ht : nodes[i]? = some t) :
    StepEffect nodes i st.config
      ((loadStep nodeReader i t nodes[i + 1]? st).map (·.config)) :=
  (loadStep_case h ht).effect ht

/-- The locals reflect the array behind token `i`, too. -/
theorem loadStep_reflects {next : Option Node} {st' : LoadState} (h : Reflects nodes i st)
    (ht : nodes[i]? = some t) (hstep : loadStep nodeReader i t next st = .ok st') :
    Reflects nodes (i + 1) st' :=
  (loadStep_case h ht).reflects h hstep

end Branches

/-! ## The whole walk -/

/-- The locals reflect the array behind any stretch of it. -/
theorem loadLoop_reflects {after : Option Node} : ∀ {ts pre : List Node} (post : List Node)
    {st st' : LoadState}, nodes = pre ++ (ts ++ post) → Reflects nodes pre.length st →
    loadLoop nodeReader after pre.length ts st = .ok st' →
    Reflects nodes (pre ++ ts).length st' := by
  intro ts
  induction ts with
  | nil =>
      intro pre post st st' _ hreflects h
      cases h
      rwa [List.append_nil]
  | cons t ts ih =>
      intro pre post st st' hnodes hreflects h
      have ht : nodes[pre.length]? = some t := by simp [hnodes]
      have hlength : (pre ++ [t]).length = pre.length + 1 := by simp
      rw [loadLoop] at h
      cases hstep : loadStep nodeReader pre.length t (ts.head?.or after) st with
      | error fault => simp [hstep] at h
      | ok st₁ =>
          have hreflects₁ := loadStep_reflects hreflects ht hstep
          simp only [hstep] at h
          rw [← hlength] at h hreflects₁
          have hnodes' : nodes = (pre ++ [t]) ++ (ts ++ post) := by simp [hnodes]
          simpa using ih post hnodes' hreflects₁ h

/-- The rule for the walk: it stops at the first token that is not safe, and otherwise
carries an invariant of the buffers to the end. -/
theorem loadLoop_cases {P : Nat → Buffers → Prop}
    (hstep : ∀ {k : Nat} {c c' : Buffers}, P k c → StepEffect nodes k c (.ok c') → P (k + 1) c') :
    ∀ {ts pre : List Node} {st : LoadState}, nodes = pre ++ ts → Reflects nodes pre.length st →
      P pre.length st.config →
      (∃ st', loadLoop nodeReader none pre.length ts st = .ok st' ∧
        P nodes.length st'.config ∧ ∀ k, pre.length ≤ k → k < nodes.length → SafeAt nodes k) ∨
      (∃ fault k, loadLoop nodeReader none pre.length ts st = .error fault ∧
        k < nodes.length ∧ Faulty nodes k fault) := by
  intro ts
  induction ts with
  | nil =>
      intro pre st hnodes _ hP
      have hlength : nodes.length = pre.length := by simp [hnodes]
      refine .inl ⟨st, rfl, hlength.symm ▸ hP, fun k hlow hhigh => ?_⟩
      omega
  | cons t ts ih =>
      intro pre st hnodes hreflects hP
      have ht : nodes[pre.length]? = some t := by simp [hnodes]
      have hnext : nodes[pre.length + 1]? = ts.head?.or none := by
        rw [hnodes, List.getElem?_append_right (by omega)]
        simp [List.head?_eq_getElem?]
      have hlt : pre.length < nodes.length := (List.getElem?_eq_some_iff.mp ht).1
      have hnodes' : nodes = (pre ++ [t]) ++ ts := by simp [hnodes]
      have hlength : (pre ++ [t]).length = pre.length + 1 := by simp
      have heffect := loadStep_effect hreflects ht
      rw [hnext] at heffect
      rw [loadLoop]
      cases hresult : loadStep nodeReader pre.length t (ts.head?.or none) st with
      | error fault =>
          rw [hresult] at heffect
          cases heffect with
          | fault _ hfaulty => exact .inr ⟨fault, pre.length, rfl, hlt, hfaulty⟩
      | ok st₁ =>
          rw [hresult] at heffect
          have hP₁ : P (pre ++ [t]).length st₁.config := hlength ▸ hstep hP heffect
          have hreflects₁ : Reflects nodes (pre ++ [t]).length st₁ :=
            hlength ▸ loadStep_reflects hreflects ht hresult
          rcases ih hnodes' hreflects₁ hP₁ with ⟨st', hrun, hP', hrest⟩ | ⟨fault, k, hrun, hk⟩
          · refine .inl ⟨st', by rw [← hlength]; exact hrun, hP', fun k hlow hhigh => ?_⟩
            rcases Nat.eq_or_lt_of_le hlow with rfl | hlow
            · exact heffect.safeAt
            · exact hrest k (by omega) hhigh
          · exact .inr ⟨fault, k, by rw [← hlength]; exact hrun, hk⟩

/-- The rule for a whole file. -/
theorem loadNodes_cases (nodes : List Node) {P : Nat → Buffers → Prop} {c : Buffers}
    (hstep : ∀ {k : Nat} {c c' : Buffers}, P k c → StepEffect nodes k c (.ok c') → P (k + 1) c')
    (hstart : P 0 c) :
    (∃ c', loadNodes nodes c = .ok c' ∧ P nodes.length c' ∧
      ∀ k, k < nodes.length → SafeAt nodes k) ∨
    (∃ fault k, loadNodes nodes c = .error fault ∧ k < nodes.length ∧ Faulty nodes k fault) := by
  have hloop := loadLoop_cases hstep (show nodes = [] ++ nodes from rfl)
    (Reflects.start nodes c) hstart
  simp only [List.length_nil] at hloop
  rcases hloop with ⟨st', hrun, hP, hsafe⟩ | ⟨fault, k, hrun, hk, hfaulty⟩
  · refine .inl ⟨st'.config, ?_, hP, fun k hk => hsafe k (Nat.zero_le k) hk⟩
    rw [loadNodes, hrun]
    rfl
  · refine .inr ⟨fault, k, ?_, hk, hfaulty⟩
    rw [loadNodes, hrun]
    rfl

/-- The walk ends without a fault precisely if every token is safe. -/
theorem loadNodes_ok_iff (nodes : List Node) (c : Buffers) :
    (∃ c', loadNodes nodes c = .ok c') ↔ ∀ i, i < nodes.length → SafeAt nodes i := by
  rcases loadNodes_cases nodes (P := fun _ _ => True) (c := c) (fun _ _ => trivial)
      trivial with ⟨c', hload, _, hsafe⟩ | ⟨fault, k, hload, hk, hfaulty⟩
  · exact iff_of_true ⟨c', hload⟩ hsafe
  · refine iff_of_false ?_ (fun hsafe => hfaulty.not_safe (hsafe k hk))
    rintro ⟨c', hc'⟩
    rw [hload] at hc'
    cases hc'

/-- Position `p` of a buffer before token `i`: what the last string stored that reaches it
has there, or zero. -/
def LastByte (nodes : List Node) (slot : Slot) (i p : Nat) (b : UInt8) : Prop :=
  (∃ k, k < i ∧ Stores nodes slot k ∧ (storedText nodes slot k)[p]? = some b ∧
    ∀ k', k < k' → k' < i → Stores nodes slot k' → (storedText nodes slot k').length ≤ p) ∨
  (b = 0 ∧ ∀ k, k < i → Stores nodes slot k → (storedText nodes slot k).length ≤ p)

/-- Every position of every buffer holds what the strings stored before token `i` left. -/
def Settled (nodes : List Node) (i : Nat) (c : Buffers) : Prop :=
  ∀ (slot : Slot) (p : Fin slot.capacity), LastByte nodes slot i p.val (c slot p)

/-- A token that stores nothing that reaches the position leaves it. -/
theorem LastByte.keep {slot : Slot} {i p : Nat} {b : UInt8} (h : LastByte nodes slot i p b)
    (hshort : Stores nodes slot i → (storedText nodes slot i).length ≤ p) :
    LastByte nodes slot (i + 1) p b := by
  rcases h with ⟨k, hk, hstores, hbyte, hlater⟩ | ⟨hzero, hnone⟩
  · refine .inl ⟨k, by omega, hstores, hbyte, fun k' hlow hhigh hstores' => ?_⟩
    rcases Nat.lt_succ_iff_lt_or_eq.mp hhigh with hlt | rfl
    · exact hlater k' hlow hlt hstores'
    · exact hshort hstores'
  · refine .inr ⟨hzero, fun k hk hstores => ?_⟩
    rcases Nat.lt_succ_iff_lt_or_eq.mp hk with hlt | rfl
    · exact hnone k hlt hstores
    · exact hshort hstores

theorem Settled.step {i : Nat} {c c' : Buffers} (h : Settled nodes i c)
    (heffect : StepEffect nodes i c (.ok c')) : Settled nodes (i + 1) c' := by
  intro slot p
  cases heffect with
  | silent _ hnone => exact (h slot p).keep (fun hstores => absurd hstores (hnone slot))
  | stored _ stored hstores =>
      by_cases hslot : slot = stored
      · subst hslot
        rw [Buffers.write_same]
        by_cases hreach : p.val < (storedText nodes slot i).length
        · refine .inl ⟨i, Nat.lt_succ_self i, hstores, ?_, fun k' hlow hhigh => by omega⟩
          have hbyte := List.getElem?_eq_getElem hreach
          have hp := p.isLt
          simp [Buffer.write, hp, hbyte]
        · have hout : (storedText nodes slot i)[p.val]? = none :=
            List.getElem?_eq_none_iff.mpr (by omega)
          have hkept : ((c slot).write ((storedText nodes slot i).take slot.capacity)) p =
              c slot p := by
            have hp := p.isLt
            simp [Buffer.write, hp, hout]
          rw [hkept]
          exact (h slot p).keep (fun _ => by omega)
      · rw [Buffers.write_other c _ hslot]
        refine (h slot p).keep (fun hstores' => ?_)
        exact absurd (hstores'.1.unique hstores.1) hslot

/-- What the buffers hold after a walk from zeroed ones. -/
theorem loadNodes_settled {c : Buffers} (h : loadNodes nodes Buffers.zero = .ok c) :
    Settled nodes nodes.length c := by
  have hzero : Settled nodes 0 Buffers.zero :=
    fun slot p => .inr ⟨rfl, fun k hk => absurd hk (Nat.not_lt_zero k)⟩
  rcases loadNodes_cases nodes (fun hsettled heffect => Settled.step hsettled heffect) hzero with
    ⟨c', hload, hsettled, _⟩ | ⟨fault, k, hload, _⟩
  · rw [hload] at h
    cases h
    exact hsettled
  · rw [hload] at h
    cases h

end Uiso.Config
