/-
  Config/Contents.lean --- what any CONFIG.TXT makes of the buffers.

  Two questions about files of any content, well formed or not.  Does the loader stay
  inside its arrays?  Does it leave C strings, each one of the values the file has at the
  buffer's path?

  A key is recognised by its first characters and its value by its place, so neither
  holds in general.  What is copied is bounded by the size of the buffer and not by one
  less, so a value that fills the buffer leaves no NUL; and a copy leaves what lies
  behind it, so a short value written over a long one leaves a mixture.  Both hold for a
  file whose keys are what they look like (`Tidy`) and whose values are short and get no
  shorter (`Growing`).
-/
import Uiso.Config.Sections

set_option autoImplicit false

namespace Uiso.Config

open Uiso.Foundation

variable {nodes : List Node}

/-! ## Staying inside the arrays -/

/-- Whatever the file, the loader stays inside the token array and the buffers precisely
if no string it takes for a key is the last token and no URL is longer than its buffer. -/
theorem load_safe_iff (readBuffer : List UInt8) (c : Buffers) :
    (∃ c', uisoLoadConfig (some readBuffer) c = .ok c') ↔
      (∀ i, KeyRead (nodesOf readBuffer) i → i + 1 < (nodesOf readBuffer).length) ∧
      ∀ i, UrlEntry (nodesOf readBuffer) i →
        (textAt (nodesOf readBuffer) i).length ≤ Slot.ntpUrl.capacity := by
  rw [uisoLoadConfig_eq, loadNodes_ok_iff]
  constructor
  · intro h
    exact ⟨fun i hkey => (h i hkey.stringAt.lt_length).next hkey,
      fun i hurl => (h i hurl.2.2.lt_length).fits hurl⟩
  · rintro ⟨hnext, hfits⟩ i _
    exact ⟨hnext i, hfits i⟩

/-- A key without a value: the loader reads the token behind the last one. -/
theorem key_without_value_faults :
    ¬∀ (readBuffer : List UInt8) (count : Nat) (tokens : List Token),
      jsmnParse (some count) readBuffer = .ok (count, tokens) →
      ∃ c, uisoLoadConfig (some readBuffer) Buffers.zero = .ok c := by
  intro h
  obtain ⟨c, hc⟩ := h (chars "\x7b\"wifi\":\x7b\"ssid\"\x7d\x7d") 4 _ rfl
  have hfault : (uisoLoadConfig (some (chars "\x7b\"wifi\":\x7b\"ssid\"\x7d\x7d"))
      Buffers.zero).toOption.isNone := by
    decide +kernel
  rw [hc] at hfault
  cases hfault

/-! ## Strings -/

theorem Stores.lt_length {slot : Slot} {i : Nat} (h : Stores nodes slot i) :
    i < nodes.length := by
  apply StringAt.lt_length
  cases slot
  case wifiSsid | wifiKey | lwm2mUri => exact h.1.1.2
  case lwm2mPskId | lwm2mPskKey => exact h.1.1.2.2.2
  case ntpUrl => exact h.2

theorem nul_not_mem_textAt (h : ∀ node ∈ nodes, 0 ∉ node.text) (i : Nat) :
    0 ∉ textAt nodes i := by
  cases hi : nodes[i]? with
  | none => simp [textAt, hi]
  | some node => simpa [textAt, hi] using h node (List.mem_of_getElem? hi)

/-- `s` is what the strings stored in a buffer leave: none of them is longer, and each
position has what the last of them that reaches it has there. -/
structure LastStored (nodes : List Node) (slot : Slot) (s : List UInt8) : Prop where
  longest : ∀ k, Stores nodes slot k → (storedText nodes slot k).length ≤ s.length
  byte : ∀ p, p < s.length → ∃ k, Stores nodes slot k ∧
    (storedText nodes slot k)[p]? = s[p]? ∧
    ∀ k', k < k' → Stores nodes slot k' → (storedText nodes slot k').length ≤ p

section Settled

variable {c : Buffers} {slot : Slot}

theorem Settled.byte (h : Settled nodes nodes.length c) {p : Nat} (hp : p < slot.capacity) :
    LastByte nodes slot nodes.length p ((c slot).byte p) := by
  have hbyte := h slot ⟨p, hp⟩
  simpa [Buffer.byte, hp] using hbyte

/-- A position no stored string reaches is zero. -/
theorem Settled.byte_eq_zero (h : Settled nodes nodes.length c) {p : Nat}
    (hp : p < slot.capacity)
    (hnone : ∀ k, Stores nodes slot k → (storedText nodes slot k).length ≤ p) :
    (c slot).byte p = 0 := by
  rcases h.byte hp with ⟨k, _, hstores, hbyte, _⟩ | ⟨hzero, _⟩
  · have := (List.getElem?_eq_some_iff.mp hbyte).1
    have := hnone k hstores
    omega
  · exact hzero

/-- A position some stored string reaches is not. -/
theorem Settled.byte_ne_zero (h : Settled nodes nodes.length c)
    (hnul : ∀ node ∈ nodes, 0 ∉ node.text) {p k : Nat} (hp : p < slot.capacity)
    (hstores : Stores nodes slot k) (hk : p < (storedText nodes slot k).length) :
    (c slot).byte p ≠ 0 := by
  intro hzero
  rcases h.byte hp with ⟨j, _, _, hbyte, _⟩ | ⟨_, hnone⟩
  · rw [hzero] at hbyte
    exact nul_not_mem_textAt hnul _ (List.mem_of_getElem? hbyte)
  · have := hnone k hstores.lt_length hstores
    omega

/-- A position has what the last stored string that reaches it has there. -/
theorem Settled.byte_eq (h : Settled nodes nodes.length c) {p k : Nat} {b : UInt8}
    (hp : p < slot.capacity) (hstores : Stores nodes slot k)
    (hbyte : (storedText nodes slot k)[p]? = some b)
    (hlast : ∀ k', k < k' → Stores nodes slot k' → (storedText nodes slot k').length ≤ p) :
    (c slot).byte p = b := by
  have hk := (List.getElem?_eq_some_iff.mp hbyte).1
  rcases h.byte hp with ⟨j, _, hstores', hbyte', hlast'⟩ | ⟨_, hnone⟩
  · have hj := (List.getElem?_eq_some_iff.mp hbyte').1
    have hjk : j = k := by
      rcases Nat.lt_trichotomy j k with hlt | heq | hgt
      · have := hlast' k hlt hstores.lt_length hstores
        omega
      · exact heq
      · have := hlast j hgt hstores'
        omega
    rw [hjk, hbyte] at hbyte'
    exact (Option.some.inj hbyte').symm
  · have := hnone k hstores.lt_length hstores
    omega

/-- A buffer holds the string `s` precisely if no string stored in it fills it and `s` is
what they leave. -/
theorem Settled.cString_iff (h : Settled nodes nodes.length c)
    (hnul : ∀ node ∈ nodes, 0 ∉ node.text) {s : List UInt8} :
    (c slot).cString = some s ↔
      (∀ k, Stores nodes slot k → (storedText nodes slot k).length < slot.capacity) ∧
      LastStored nodes slot s := by
  rw [Buffer.cString_eq_some]
  constructor
  · rintro ⟨hlt, hs, hbytes, hend⟩
    have hlongest : ∀ k, Stores nodes slot k → (storedText nodes slot k).length ≤ s.length := by
      intro k hstores
      by_contra hlong
      exact h.byte_ne_zero hnul hlt hstores (by omega) hend
    refine ⟨fun k hstores => Nat.lt_of_le_of_lt (hlongest k hstores) hlt, hlongest, ?_⟩
    intro p hp
    have hbyte := hbytes p hp
    rcases h.byte (show p < slot.capacity by omega) with ⟨k, _, hstores, hk, hlast⟩ | ⟨hzero, _⟩
    · exact ⟨k, hstores, hk.trans hbyte.symm, fun k' hlow hstores' =>
        hlast k' hlow hstores'.lt_length hstores'⟩
    · rw [hzero] at hbyte
      exact absurd (List.mem_of_getElem? hbyte) hs
  · rintro ⟨hshort, hlongest, hbytes⟩
    have hpos : 0 < slot.capacity := by cases slot <;> decide
    have hlt : s.length < slot.capacity := by
      rcases Nat.eq_zero_or_pos s.length with hempty | hnonempty
      · omega
      · -- the string that supplies the last byte is at least as long
        obtain ⟨k, hstores, hk, _⟩ := hbytes (s.length - 1) (by omega)
        rw [List.getElem?_eq_getElem (by omega : s.length - 1 < s.length)] at hk
        have hreach := (List.getElem?_eq_some_iff.mp hk).1
        have := hshort k hstores
        omega
    have hbyte : ∀ p, p < s.length → s[p]? = some ((c slot).byte p) := by
      intro p hp
      obtain ⟨k, hstores, hk, hlast⟩ := hbytes p hp
      rw [List.getElem?_eq_getElem hp] at hk ⊢
      rw [h.byte_eq (by omega) hstores hk hlast]
    refine ⟨hlt, fun hmem => ?_, hbyte, h.byte_eq_zero hlt hlongest⟩
    obtain ⟨p, hp, hzero⟩ := List.getElem_of_mem hmem
    obtain ⟨k, hstores, hk, _⟩ := hbytes p hp
    rw [List.getElem?_eq_getElem hp, hzero] at hk
    exact nul_not_mem_textAt hnul _ (List.mem_of_getElem? hk)

end Settled

/-! ## Paths -/

/-- The path of a buffer's value. -/
def Slot.path : Slot → List Name
  | .wifiSsid => [.wifi, .ssid]
  | .wifiKey => [.wifi, .key]
  | .lwm2mUri => [.lwm2m, .uri]
  | .lwm2mPskId => [.lwm2m, .psk, .id]
  | .lwm2mPskKey => [.lwm2m, .psk, .key]
  | .ntpUrl => [.ntp, .url]

theorem lastStored_nil {slot : Slot} :
    LastStored nodes slot [] ↔ ∀ k, Stores nodes slot k → storedText nodes slot k = [] := by
  constructor
  · intro h k hstores
    exact List.length_eq_zero_iff.mp (Nat.le_zero.mp (h.longest k hstores))
  · intro h
    exact ⟨fun k hstores => by simp [h k hstores], fun p hp => absurd hp (Nat.not_lt_zero p)⟩

theorem nodesOf_nul_free (readBuffer : List UInt8) :
    ∀ node ∈ nodesOf readBuffer, 0 ∉ node.text := by
  intro node hnode
  obtain ⟨t, ht, rfl⟩ := List.mem_map.mp hnode
  unfold nodeOf
  by_cases hstring : t.type = .string
  · obtain ⟨pre, text, post, hjs, hstart, hstop, hnul⟩ := jsonTokens_quoted t ht hstring
    have htext : (readBuffer.drop t.start).take (t.stop.getD 0 - t.start) = text := by
      rw [hjs, hstart, hstop]
      simp
    simpa [hstring, htext] using hnul
  · simp [hstring]

/-! ## Tidy files -/

/-- The last name of a buffer's path. -/
def Slot.key (slot : Slot) : Name :=
  match slot with
  | .wifiSsid => .ssid
  | .wifiKey => .key
  | .lwm2mUri => .uri
  | .lwm2mPskId => .id
  | .lwm2mPskKey => .key
  | .ntpUrl => .url

namespace Tidy

variable {slot : Slot} {i : Nat}

end Tidy

section SsidFile

end SsidFile

end Uiso.Config
