/-
  Lwm2m/ServerUri.lean --- how `lwm2m_connect_server` takes a server URI apart.

  `get_server_uri` hands out a copy of the URI in the security instance.  The parser
  works in that copy: it sets `host` and `port` into it and cuts the text by writing a
  NUL over the closing bracket and over the last colon.  Here the copy is a block of
  memory, and every access to it is checked.

  `parseServerUri` in Lwm2m/Connection.lean is the same function on texts.
-/
import Uiso.Lwm2m.Connection
import Uiso.Foundation.CString
import Uiso.Foundation.KeyedList

set_option autoImplicit false

namespace Uiso.Lwm2m

open Uiso.Foundation
open Uiso.Foundation.CString

/-! ## The source on memory -/

/-- The end of a string. -/
def nul : Char := '\x00'

/-- `lwm2m_strdup`: the copy is put into the block that `lwm2m_malloc` gives. -/
def lwm2mStrdup (m : Blocks Char) (str : Ptr) (buf : Nat) : Option (Blocks Char × Ptr) := do
  let text ← m.tail str
  let len := (← strlen nul text) + 1
  -- memset to 0, then memcpy of all but the last character
  let zeroed := List.replicate len nul
  return (m.alloc buf (text.take (len - 1) ++ zeroed.drop (len - 1)), ⟨buf, 0⟩)

/-- The length of the scheme the URI starts with; `goto exit` when it is neither. -/
def schemeLength (text : List Char) : Option (Option Nat) := do
  if ← startsWith text "coaps://".toList then return some "coaps://".toList.length
  else if ← startsWith text "coap://".toList then return some "coap://".toList.length
  else return none

/-- `*port = 0; port++` -/
def splitStrings (m : Blocks Char) (host port : Ptr) :
    Option (Blocks Char × Option (Ptr × Ptr)) := do
  let m ← m.write port nul
  return (m, some (host, port.add 1))

/-- From `// remove brackets` on: `goto exit` when an opening bracket is not closed. -/
def removeBracketsInPlace (m : Blocks Char) (host port : Ptr) :
    Option (Blocks Char × Option (Ptr × Ptr)) := do
  if (← m.read host) = '[' then
    let last ← port.pred
    if (← m.read last) = ']' then
      let m ← m.write last nul
      splitStrings m (host.add 1) port
    else return (m, none)
  else splitStrings m host port

/-- The parsing, in place: the memory after it, and `host` and `port` unless it is left
by `goto exit`. -/
def parseInPlace (m : Blocks Char) (uri : Ptr) : Option (Blocks Char × Option (Ptr × Ptr)) := do
  match ← schemeLength (← m.tail uri) with
  | none => return (m, none)
  | some n =>
      let host := uri.add n
      match ← strrchr nul ':' (← m.tail host) with
      | none => return (m, none)
      | some i => removeBracketsInPlace m host (host.add i)

/-- What is left of a call of `lwm2m_connect_server`. -/
structure UriOutcome where
  memory : Blocks Char
  /-- the strings `connection_create` is called with -/
  created : Option (List Char × List Char)

/-- From the parsing to `lwm2m_free(uri)`: `connection_create` reads its two strings. -/
def createWith (copy : Nat) : Blocks Char × Option (Ptr × Ptr) → Option UriOutcome
  | (m, none) => some ⟨m.free copy, none⟩
  | (m, some (host, port)) => do
      let host ← cString nul (← m.tail host)
      let port ← cString nul (← m.tail port)
      return ⟨m.free copy, some (host, port)⟩

/-- An instance of the security object, as far as it is read here. -/
structure SecurityInstance where
  instanceId : Nat
  /-- the block of the array `uri` -/
  uri : Nat
  deriving DecidableEq, Repr

/-- `get_server_uri`; without the instance it gives no URI. -/
def getServerUri [KeyedList SecurityInstance.instanceId] (m : Blocks Char)
    (instances : List SecurityInstance) (secObjInstId copy : Nat) :
    Option (Option (Blocks Char × Ptr)) :=
  match KeyedList.find SecurityInstance.instanceId secObjInstId instances with
  | none => some none
  | some target => (lwm2mStrdup m ⟨target.uri, 0⟩ copy).map some

/-- `lwm2m_connect_server`, as far as the URI is concerned, when mbedTLS is initialised;
`copy` is the block `lwm2m_malloc` gives. -/
def connectServerUri [KeyedList SecurityInstance.instanceId] (m : Blocks Char)
    (instances : List SecurityInstance) (secObjInstId copy : Nat) : Option UriOutcome := do
  match ← getServerUri m instances secObjInstId copy with
  | none => return ⟨m, none⟩
  | some (m, uri) =>
      -- "Connecting to %s"
      let _ ← strlen nul (← m.tail uri)
      let parsed ← parseInPlace m uri
      createWith copy parsed

/-! ## The texts -/

/-- `parseServerUri` on the characters. -/
def parseChars (uri : List Char) : Option (List Char × List Char) := do
  let rest ← stripScheme uri
  let (host, port) ← splitLastColon rest
  let host ← removeBrackets host
  return (host, port)

theorem parseServerUri_eq (uri : String) :
    parseServerUri uri =
      (parseChars uri.toList).map fun parts => (String.ofList parts.1, String.ofList parts.2) := by
  unfold parseServerUri parseChars
  cases stripScheme uri.toList with
  | none => rfl
  | some rest =>
      cases hsplit : splitLastColon rest with
      | none => simp [hsplit]
      | some parts =>
          obtain ⟨host, port⟩ := parts
          cases hhost : removeBrackets host with
          | none => simp [hsplit, hhost]
          | some host' => simp [hsplit, hhost]

/-- Without a colon there is nothing to split. -/
theorem splitLastColon_eq_none {l : List Char} : splitLastColon l = none ↔ ':' ∉ l := by
  induction l with
  | nil => simp [splitLastColon]
  | cons c l ih =>
      cases hsplit : splitLastColon l with
      | none =>
          by_cases hc : c = ':'
          · simp [splitLastColon, hsplit, hc]
          · simp [splitLastColon, hsplit, hc, Ne.symm hc, ih.mp hsplit]
      | some parts =>
          have hin : ':' ∈ l := by
            by_contra hout
            rw [ih.mpr hout] at hsplit
            cases hsplit
          simp [splitLastColon, hsplit, hin]

/-- The text is split at its last colon. -/
theorem splitLastColon_append (host : List Char) {port : List Char} (hport : ':' ∉ port) :
    splitLastColon (host ++ ':' :: port) = some (host, port) := by
  induction host with
  | nil => simp [splitLastColon, splitLastColon_eq_none.mpr hport]
  | cons c host ih => simp [splitLastColon, ih]

theorem splitLastColon_eq_some {l host port : List Char} :
    splitLastColon l = some (host, port) ↔ l = host ++ ':' :: port ∧ ':' ∉ port := by
  constructor
  · intro h
    induction l generalizing host with
    | nil => cases h
    | cons c l ih =>
        cases hsplit : splitLastColon l with
        | none =>
            by_cases hc : c = ':'
            · simp only [splitLastColon, hsplit, hc, if_true, Option.some.injEq,
                Prod.mk.injEq] at h
              obtain ⟨rfl, rfl⟩ := h
              exact ⟨by rw [hc]; rfl, splitLastColon_eq_none.mp hsplit⟩
            · simp [splitLastColon, hsplit, hc] at h
        | some parts =>
            simp only [splitLastColon, hsplit, Option.some.injEq, Prod.mk.injEq] at h
            obtain ⟨rfl, rfl⟩ := h
            obtain ⟨hl, hport⟩ := ih hsplit
            exact ⟨by rw [hl]; rfl, hport⟩
  · rintro ⟨rfl, hport⟩
    exact splitLastColon_append host hport

/-- The scheme is one of the two. -/
theorem stripScheme_eq_some {s rest : List Char} :
    stripScheme s = some rest ↔ s = "coaps://".toList ++ rest ∨ s = "coap://".toList ++ rest := by
  constructor
  · intro h
    unfold stripScheme at h
    split at h
    · exact .inl (by rw [Option.some.inj h]; rfl)
    · exact .inr (by rw [Option.some.inj h]; rfl)
    · cases h
  · rintro (rfl | rfl) <;> rfl

/-! ## One call -/

section Call

variable {m : Blocks Char} {stored copy : Nat} {s scheme rest before port l : List Char}

/-- The copy is the string and its NUL, whatever lies behind the string. -/
theorem lwm2mStrdup_eq (hstored : m stored = some (s ++ nul :: l)) (hs : nul ∉ s) :
    lwm2mStrdup m ⟨stored, 0⟩ copy = some (m.alloc copy (s ++ [nul]), ⟨copy, 0⟩) := by
  have hblock : m stored = some ([] ++ (s ++ nul :: l)) := hstored
  have htail : m.tail ⟨stored, 0⟩ = some (s ++ nul :: l) := Blocks.tail_eq hblock rfl
  simp [lwm2mStrdup, htail, strlen_eq hs, List.replicate_succ']

/-- The comparisons with the schemes see the string only. -/
theorem schemeLength_eq (s l : List Char) :
    schemeLength (s ++ nul :: l) =
      some (if "coaps://".toList.isPrefixOf s then some "coaps://".toList.length
        else if "coap://".toList.isPrefixOf s then some "coap://".toList.length else none) := by
  have hcoaps : startsWith (s ++ nul :: l) "coaps://".toList =
      some ("coaps://".toList.isPrefixOf s) := startsWith_eq (by decide) s l
  have hcoap : startsWith (s ++ nul :: l) "coap://".toList =
      some ("coap://".toList.isPrefixOf s) := startsWith_eq (by decide) s l
  unfold schemeLength
  rw [hcoaps, hcoap]
  cases "coaps://".toList.isPrefixOf s with
  | true => rfl
  | false => cases "coap://".toList.isPrefixOf s <;> rfl

/-- What the scheme is followed by starts where the scheme ends. -/
theorem schemeLength_of_stripScheme (h : stripScheme s = some rest) (l : List Char) :
    ∃ scheme, s = scheme ++ rest ∧ schemeLength (s ++ nul :: l) = some (some scheme.length) := by
  rw [schemeLength_eq]
  rcases stripScheme_eq_some.mp h with rfl | rfl
  · exact ⟨_, rfl, rfl⟩
  · exact ⟨_, rfl, rfl⟩

theorem schemeLength_of_none (h : stripScheme s = none) (l : List Char) :
    schemeLength (s ++ nul :: l) = some none := by
  have hnot : ∀ rest, ¬(s = "coaps://".toList ++ rest ∨ s = "coap://".toList ++ rest) := by
    intro rest hrest
    rw [stripScheme_eq_some.mpr hrest] at h
    cases h
  have hcoaps : "coaps://".toList.isPrefixOf s = false := by
    rw [Bool.eq_false_iff]
    intro hstarts
    obtain ⟨rest, rfl⟩ := List.isPrefixOf_iff_prefix.mp hstarts
    exact hnot rest (.inl rfl)
  have hcoap : "coap://".toList.isPrefixOf s = false := by
    rw [Bool.eq_false_iff]
    intro hstarts
    obtain ⟨rest, rfl⟩ := List.isPrefixOf_iff_prefix.mp hstarts
    exact hnot rest (.inr rfl)
  rw [schemeLength_eq, hcoaps, hcoap]
  rfl

/-- The block holds the copy of a URI: a scheme, what follows it, and the NUL. -/
structure HoldsUri (m : Blocks Char) (copy : Nat) (scheme rest : List Char) : Prop where
  block : m copy = some (scheme ++ (rest ++ [nul]))
  scheme : schemeLength (scheme ++ (rest ++ [nul])) = some (some scheme.length)
  noNul : nul ∉ rest

/-- With its scheme, the text is parsed from `host` on. -/
theorem HoldsUri.parse_eq (h : HoldsUri m copy scheme rest) (found : Option Nat)
    (hcolon : strrchr nul ':' (rest ++ [nul]) = some found) :
    parseInPlace m ⟨copy, 0⟩ =
      match found with
      | none => some (m, none)
      | some i => removeBracketsInPlace m ⟨copy, scheme.length⟩ ⟨copy, scheme.length + i⟩ := by
  have hblock : m copy = some ([] ++ (scheme ++ (rest ++ [nul]))) := h.block
  have huri : m.tail ⟨copy, 0⟩ = some (scheme ++ (rest ++ [nul])) := Blocks.tail_eq hblock rfl
  have hhost : m.tail ((Ptr.mk copy 0).add scheme.length) = some (rest ++ [nul]) :=
    Blocks.tail_eq h.block (Nat.zero_add _)
  have hadd : (Ptr.mk copy 0).add scheme.length = ⟨copy, scheme.length⟩ :=
    congrArg (Ptr.mk copy) (Nat.zero_add _)
  simp only [parseInPlace, huri, h.scheme, hhost, hcolon, Option.bind_eq_bind, Option.bind_some]
  cases found with
  | none => rfl
  | some i => rw [hadd]; rfl

/-- Without a colon the parser gives up. -/
theorem HoldsUri.parse_noColon (h : HoldsUri m copy scheme rest) (hcolon : ':' ∉ rest) :
    parseInPlace m ⟨copy, 0⟩ = some (m, none) :=
  h.parse_eq none (strrchr_eq_none h.noNul hcolon [])

/-- With one, it looks at what is before and behind the last. -/
theorem HoldsUri.parse_colon (h : HoldsUri m copy scheme (before ++ ':' :: port))
    (hport : ':' ∉ port) :
    parseInPlace m ⟨copy, 0⟩ =
      removeBracketsInPlace m ⟨copy, scheme.length⟩ ⟨copy, scheme.length + before.length⟩ := by
  have hno := h.noNul
  simp only [List.mem_append, List.mem_cons, not_or] at hno
  refine h.parse_eq (some before.length) ?_
  rw [List.append_assoc, List.cons_append]
  exact strrchr_eq_some hno.1 (by decide) hno.2.2 hport []

/-- `*port = 0` cuts the text at the colon. -/
theorem splitStrings_eq {front back : List Char} {n : Nat} (host : Ptr)
    (hblock : m copy = some (front ++ ':' :: back)) (hn : n = front.length) :
    splitStrings m host ⟨copy, n⟩ =
      some (m.alloc copy (front ++ nul :: back), some (host, ⟨copy, n + 1⟩)) := by
  simp only [splitStrings, Blocks.write_eq hblock hn, Option.bind_eq_bind, Option.bind_some]
  rfl

/-- Without an opening bracket only the colon is overwritten. -/
theorem removeBracketsInPlace_plain
    (hblock : m copy = some (scheme ++ (before ++ ':' :: l))) (hopen : before.head? ≠ some '[') :
    removeBracketsInPlace m ⟨copy, scheme.length⟩ ⟨copy, scheme.length + before.length⟩ =
      some (m.alloc copy (scheme ++ (before ++ nul :: l)),
        some (⟨copy, scheme.length⟩, ⟨copy, scheme.length + before.length + 1⟩)) := by
  obtain ⟨c, hread, hc⟩ : ∃ c, m.read ⟨copy, scheme.length⟩ = some c ∧ c ≠ '[' := by
    cases before with
    | nil => exact ⟨':', Blocks.read_eq hblock rfl, by decide⟩
    | cons c before => exact ⟨c, Blocks.read_eq hblock rfl, fun hc => hopen (congrArg some hc)⟩
  rw [← List.append_assoc] at hblock ⊢
  simp only [removeBracketsInPlace, hread, Option.bind_eq_bind, Option.bind_some, if_neg hc]
  exact splitStrings_eq _ hblock (List.length_append).symm

/-- The character before the colon, behind an opening bracket. -/
theorem read_beforeColon {inner : List Char}
    (hblock : m copy = some (scheme ++ ('[' :: inner ++ ':' :: l))) :
    ∃ c, m.read ⟨copy, scheme.length + inner.length⟩ = some c ∧
      (c = ']' ↔ inner.getLast? = some ']') := by
  rcases List.eq_nil_or_concat inner with rfl | ⟨host, c, rfl⟩
  · exact ⟨'[', Blocks.read_eq hblock rfl, by decide⟩
  · refine ⟨c, ?_, by simp⟩
    have hfront : m copy = some (scheme ++ '[' :: host ++ c :: ':' :: l) := by
      rw [hblock]
      simp
    exact Blocks.read_eq hfront (by simp)

/-- An opening bracket that is not closed before the colon. -/
theorem removeBracketsInPlace_unclosed {inner : List Char}
    (hblock : m copy = some (scheme ++ ('[' :: inner ++ ':' :: l)))
    (hclose : inner.getLast? ≠ some ']') :
    removeBracketsInPlace m ⟨copy, scheme.length⟩ ⟨copy, scheme.length + ('[' :: inner).length⟩ =
      some (m, none) := by
  have hopen : m.read ⟨copy, scheme.length⟩ = some '[' := Blocks.read_eq hblock rfl
  obtain ⟨c, hread, hc⟩ := read_beforeColon hblock
  have hpred : (Ptr.mk copy (scheme.length + ('[' :: inner).length)).pred =
      some ⟨copy, scheme.length + inner.length⟩ := rfl
  simp only [removeBracketsInPlace, hopen, hpred, hread, Option.bind_eq_bind, Option.bind_some,
    if_true, if_neg (mt hc.mp hclose)]
  rfl

/-- Brackets around the host: the closing one and the colon are overwritten. -/
theorem removeBracketsInPlace_closed {inner : List Char}
    (hblock : m copy = some (scheme ++ ('[' :: (inner ++ [']']) ++ ':' :: l))) :
    removeBracketsInPlace m ⟨copy, scheme.length⟩
        ⟨copy, scheme.length + ('[' :: (inner ++ [']'])).length⟩ =
      some (m.alloc copy (scheme ++ '[' :: (inner ++ nul :: nul :: l)),
        some (⟨copy, scheme.length + 1⟩,
          ⟨copy, scheme.length + ('[' :: (inner ++ [']'])).length + 1⟩)) := by
  have hopen : m.read ⟨copy, scheme.length⟩ = some '[' := Blocks.read_eq hblock rfl
  obtain ⟨c, hread, hc⟩ := read_beforeColon hblock
  have hpred : (Ptr.mk copy (scheme.length + ('[' :: (inner ++ [']'])).length)).pred =
      some ⟨copy, scheme.length + (inner ++ [']']).length⟩ := rfl
  have hfront : m copy = some (scheme ++ '[' :: inner ++ ']' :: ':' :: l) := by
    rw [hblock]
    simp
  have hwrite : m.write ⟨copy, scheme.length + (inner ++ [']']).length⟩ nul =
      some (m.alloc copy (scheme ++ '[' :: inner ++ nul :: ':' :: l)) :=
    Blocks.write_eq hfront (by simp) nul
  have hcut : m.alloc copy (scheme ++ '[' :: inner ++ nul :: ':' :: l) copy =
      some (scheme ++ '[' :: inner ++ [nul] ++ ':' :: l) := by
    simp
  simp only [removeBracketsInPlace, hopen, hpred, hread, Option.bind_eq_bind, Option.bind_some,
    if_true, if_pos (hc.mpr List.getLast?_concat), hwrite]
  rw [splitStrings_eq _ hcut (by simp)]
  simp [Ptr.add]

/-- `connection_create` reads the strings that `host` and `port` point to. -/
theorem createWith_eq {front front' host after after' : List Char} {i j : Nat}
    (hfree : m copy = none) {text : List Char}
    (hhost : text = front ++ (host ++ nul :: after)) (hi : i = front.length) (hhostNul : nul ∉ host)
    (hport : text = front' ++ (port ++ nul :: after')) (hj : j = front'.length)
    (hportNul : nul ∉ port) :
    createWith copy (m.alloc copy text, some (⟨copy, i⟩, ⟨copy, j⟩)) =
      some ⟨m, some (host, port)⟩ := by
  have hhostBlock : m.alloc copy text copy = some (front ++ (host ++ nul :: after)) := by
    rw [Blocks.alloc_same, hhost]
  have hportBlock : m.alloc copy text copy = some (front' ++ (port ++ nul :: after')) := by
    rw [Blocks.alloc_same, hport]
  simp only [createWith, Blocks.tail_eq hhostBlock hi, Blocks.tail_eq hportBlock hj,
    cString_eq hhostNul, cString_eq hportNul, Option.bind_eq_bind, Option.bind_some,
    Blocks.free_alloc hfree]
  rfl

theorem createWith_none (hfree : m copy = none) (text : List Char) :
    createWith copy (m.alloc copy text, none) = some ⟨m, none⟩ :=
  congrArg (fun m => some (UriOutcome.mk m none)) (Blocks.free_alloc hfree text)

/-- The two strings, once the last colon is found. -/
theorem create_colon (hfree : m copy = none) (hbefore : nul ∉ before) (hport : nul ∉ port) :
    (removeBracketsInPlace (m.alloc copy (scheme ++ (before ++ ':' :: (port ++ [nul]))))
        ⟨copy, scheme.length⟩ ⟨copy, scheme.length + before.length⟩).bind (createWith copy) =
      some ⟨m, (removeBrackets before).map fun host => (host, port)⟩ := by
  by_cases hopen : before.head? = some '['
  · obtain ⟨inner, rfl⟩ : ∃ inner, before = '[' :: inner := by
      cases before with
      | nil => cases hopen
      | cons c inner => exact ⟨inner, by rw [Option.some.inj hopen]⟩
    by_cases hclose : inner.getLast? = some ']'
    · obtain ⟨host, rfl⟩ : ∃ host, inner = host ++ [']'] := by
        rcases List.eq_nil_or_concat inner with rfl | ⟨host, c, rfl⟩
        · cases hclose
        · have hc : c = ']' := by simpa using hclose
          exact ⟨host, by rw [hc, List.concat_eq_append]⟩
      have hhost : nul ∉ host := fun h => hbefore (by simp [h])
      have hlist : removeBrackets ('[' :: (host ++ [']'])) = some host := by simp [removeBrackets]
      rw [removeBracketsInPlace_closed (Blocks.alloc_same _ _ _), Option.bind_some,
        Blocks.alloc_alloc, hlist]
      have hhostText : scheme ++ '[' :: (host ++ nul :: nul :: (port ++ [nul])) =
          scheme ++ ['['] ++ (host ++ nul :: nul :: (port ++ [nul])) := by simp
      have hportText : scheme ++ '[' :: (host ++ nul :: nul :: (port ++ [nul])) =
          scheme ++ '[' :: (host ++ [nul, nul]) ++ (port ++ [nul]) := by simp
      exact createWith_eq hfree hhostText (by simp) hhost hportText (by simp; omega) hport
    · have hlist : removeBrackets ('[' :: inner) = none := by simp [removeBrackets, hclose]
      rw [removeBracketsInPlace_unclosed (Blocks.alloc_same _ _ _) hclose, Option.bind_some,
        createWith_none hfree, hlist]
      rfl
  · have hlist : removeBrackets before = some before := by
      unfold removeBrackets
      split
      · exact absurd rfl hopen
      · rfl
    rw [removeBracketsInPlace_plain (Blocks.alloc_same _ _ _) hopen, Option.bind_some,
      Blocks.alloc_alloc, hlist]
    have hportText : scheme ++ (before ++ nul :: (port ++ [nul])) =
        scheme ++ (before ++ [nul]) ++ (port ++ [nul]) := by simp
    exact createWith_eq hfree rfl rfl hbefore hportText (by simp; omega) hport

/-- A URI with neither scheme. -/
theorem parse_noScheme (hblock : m copy = some (s ++ [nul])) (hscheme : stripScheme s = none) :
    parseInPlace m ⟨copy, 0⟩ = some (m, none) := by
  have hwhole : m copy = some ([] ++ (s ++ [nul])) := hblock
  have htail : m.tail ⟨copy, 0⟩ = some (s ++ [nul]) := Blocks.tail_eq hwhole rfl
  simp only [parseInPlace, htail, schemeLength_of_none hscheme [], Option.bind_eq_bind,
    Option.bind_some]
  rfl

/-- What is parsed in the copy, and that nothing is left of it. -/
theorem parse_copy (hfree : m copy = none) (hs : nul ∉ s) :
    (parseInPlace (m.alloc copy (s ++ [nul])) ⟨copy, 0⟩).bind (createWith copy) =
      some ⟨m, parseChars s⟩ := by
  cases hscheme : stripScheme s with
  | none =>
      have hlist : parseChars s = none := by simp [parseChars, hscheme]
      rw [parse_noScheme (Blocks.alloc_same _ _ _) hscheme, Option.bind_some,
        createWith_none hfree, hlist]
  | some rest =>
      obtain ⟨scheme, rfl, hlength⟩ := schemeLength_of_stripScheme hscheme []
      have hrest : nul ∉ rest := fun h => hs (List.mem_append_right scheme h)
      rw [List.append_assoc] at hlength ⊢
      have hholds : HoldsUri (m.alloc copy (scheme ++ (rest ++ [nul]))) copy scheme rest :=
        ⟨Blocks.alloc_same _ _ _, hlength, hrest⟩
      cases hsplit : splitLastColon rest with
      | none =>
          have hlist : parseChars (scheme ++ rest) = none := by simp [parseChars, hscheme, hsplit]
          rw [hholds.parse_noColon (splitLastColon_eq_none.mp hsplit), Option.bind_some,
            createWith_none hfree, hlist]
      | some parts =>
          obtain ⟨before, port⟩ := parts
          obtain ⟨rfl, hport⟩ := splitLastColon_eq_some.mp hsplit
          have hlist : parseChars (scheme ++ (before ++ ':' :: port)) =
              (removeBrackets before).map fun host => (host, port) := by
            simp only [parseChars, hscheme, hsplit, Option.bind_eq_bind, Option.bind_some]
            cases removeBrackets before <;> rfl
          simp only [List.mem_append, List.mem_cons, not_or] at hrest
          rw [hholds.parse_colon hport, hlist, List.append_assoc, List.cons_append]
          exact create_colon hfree hrest.1 hrest.2.2

end Call

/-! ## Every URI -/

/-- Host and port of a URI: it has one of the two schemes, and the rest is split at its
last colon; a rest that starts with a bracket closes it just before that colon, and the
two brackets are removed. -/
def UriParts (uri host port : List Char) : Prop :=
  ∃ rest before, (uri = "coaps://".toList ++ rest ∨ uri = "coap://".toList ++ rest) ∧
    rest = before ++ ':' :: port ∧ ':' ∉ port ∧
    if rest.head? = some '[' then before.getLast? = some ']' ∧ host = before.tail.dropLast
    else host = before

/-- What is before the last colon, without its brackets. -/
theorem removeBrackets_eq_some {before host : List Char} (l : List Char) :
    removeBrackets before = some host ↔
      if (before ++ ':' :: l).head? = some '[' then
        before.getLast? = some ']' ∧ host = before.tail.dropLast
      else host = before := by
  cases before with
  | nil => simp [removeBrackets, eq_comm]
  | cons c inner =>
      by_cases hc : c = '['
      · subst hc
        rcases List.eq_nil_or_concat inner with rfl | ⟨inner, d, rfl⟩
        · simp [removeBrackets]
        · have hlast : ('[' :: inner ++ [d]).getLast? = some d := List.getLast?_concat
          rw [List.cons_append] at hlast
          simp [removeBrackets, hlast, eq_comm]
      · have hlist : removeBrackets (c :: inner) = some (c :: inner) := by
          unfold removeBrackets
          split
          · rename_i heq
            exact absurd (List.cons.inj heq).1 hc
          · rfl
        simp [hlist, hc, eq_comm]

theorem parseChars_eq_some {uri host port : List Char} :
    parseChars uri = some (host, port) ↔ UriParts uri host port := by
  simp only [parseChars, Option.bind_eq_bind, Option.bind_eq_some_iff, Prod.exists,
    Option.pure_def, Option.some.injEq, Prod.mk.injEq, stripScheme_eq_some,
    splitLastColon_eq_some]
  constructor
  · rintro ⟨rest, hscheme, before, port', ⟨rfl, hport⟩, host', hhost, rfl, rfl⟩
    exact ⟨_, before, hscheme, rfl, hport, (removeBrackets_eq_some port').mp hhost⟩
  · rintro ⟨rest, before, hscheme, rfl, hport, hhost⟩
    exact ⟨_, hscheme, before, port, ⟨rfl, hport⟩, host, (removeBrackets_eq_some port).mpr hhost,
      rfl, rfl⟩

/-- A host that does not start with a bracket, and a port without a colon. -/
theorem uriParts_plain {scheme host port : List Char}
    (hscheme : scheme = "coaps://".toList ∨ scheme = "coap://".toList)
    (hhost : host.head? ≠ some '[') (hport : ':' ∉ port) :
    UriParts (scheme ++ (host ++ ':' :: port)) host port := by
  refine ⟨host ++ ':' :: port, host, ?_, rfl, hport, ?_⟩
  · rcases hscheme with rfl | rfl
    · exact .inl rfl
    · exact .inr rfl
  · cases host with
    | nil => simp
    | cons c host => simpa using fun hc => absurd (congrArg some hc) hhost

/-- Any host in brackets, and a port without a colon. -/
theorem uriParts_brackets {scheme host port : List Char}
    (hscheme : scheme = "coaps://".toList ∨ scheme = "coap://".toList) (hport : ':' ∉ port) :
    UriParts (scheme ++ ('[' :: host ++ [']'] ++ ':' :: port)) host port := by
  have hlast : ('[' :: host ++ [']']).getLast? = some ']' := List.getLast?_concat
  refine ⟨'[' :: host ++ [']'] ++ ':' :: port, '[' :: host ++ [']'], ?_, rfl, hport, ?_⟩
  · rcases hscheme with rfl | rfl
    · exact .inl rfl
    · exact .inr rfl
  · rw [hlast]
    simp

/-- What a call makes of the URI in the security instance. -/
structure ParsesUri [KeyedList SecurityInstance.instanceId] (m : Blocks Char)
    (instances : List SecurityInstance) (secObjInstId : Nat) (uri : List Char)
    (created : Option (List Char × List Char)) : Prop where
  /-- every access is inside a block, nothing of the copy is left, and all other blocks, that
  of the stored URI among them, are what they were -/
  returns : ∀ copy, m copy = none →
    connectServerUri m instances secObjInstId copy = some ⟨m, created⟩
  parts : ∀ host port, created = some (host, port) ↔ UriParts uri host port
  plain : ∀ scheme host port, (scheme = "coaps://".toList ∨ scheme = "coap://".toList) →
    uri = scheme ++ (host ++ ':' :: port) → host.head? ≠ some '[' → ':' ∉ port →
    created = some (host, port)
  brackets : ∀ scheme host port, (scheme = "coaps://".toList ∨ scheme = "coap://".toList) →
    uri = scheme ++ ('[' :: host ++ [']'] ++ ':' :: port) → ':' ∉ port →
    created = some (host, port)
  /-- the sessions of Lwm2m/Connection.lean are created for the same strings -/
  session : parseServerUri (String.ofList uri) =
    created.map fun parts => (String.ofList parts.1, String.ofList parts.2)

/-- Every URI stored in a security instance is taken apart at its last colon, without an
access outside its copy. -/
theorem connect_server_parses_uri [KeyedList SecurityInstance.instanceId] (m : Blocks Char)
    (instances : List SecurityInstance) (secObjInstId : Nat) (target : SecurityInstance)
    (uri behind : List Char)
    (hfind : KeyedList.find SecurityInstance.instanceId secObjInstId instances = some target)
    (hstored : m target.uri = some (uri ++ nul :: behind)) (huri : nul ∉ uri) :
    ∃ created, ParsesUri m instances secObjInstId uri created := by
  have hparts : ∀ host port, parseChars uri = some (host, port) ↔ UriParts uri host port :=
    fun _ _ => parseChars_eq_some
  refine ⟨parseChars uri, ?_, hparts, ?_, ?_, ?_⟩
  · intro copy hfree
    have hblock : m.alloc copy (uri ++ [nul]) copy = some ([] ++ (uri ++ [nul])) :=
      Blocks.alloc_same _ _ _
    have htail : (m.alloc copy (uri ++ [nul])).tail ⟨copy, 0⟩ = some (uri ++ [nul]) :=
      Blocks.tail_eq hblock rfl
    have hget : getServerUri m instances secObjInstId copy =
        some (some (m.alloc copy (uri ++ [nul]), ⟨copy, 0⟩)) := by
      simp only [getServerUri, hfind, lwm2mStrdup_eq hstored huri, Option.map_some]
    simp only [connectServerUri, hget, htail, strlen_eq huri, Option.bind_eq_bind,
      Option.bind_some]
    exact parse_copy hfree huri
  · rintro scheme host port hscheme rfl hhost hport
    exact (hparts host port).mpr (uriParts_plain hscheme hhost hport)
  · rintro scheme host port hscheme rfl hport
    exact (hparts host port).mpr (uriParts_brackets hscheme hport)
  · rw [parseServerUri_eq, String.toList_ofList]

/-- A security instance with an address in brackets. -/
def bracketUri : List Char := "coaps://[::1]:5684".toList

/-- Its URI is in block 0. -/
def bracketMemory : Blocks Char :=
  fun block => if block = 0 then some (bracketUri ++ nul :: ['x']) else none

attribute [local instance] KeyedList.ordered

theorem connect_server_parses_uri_bracket :
    (connectServerUri bracketMemory [⟨7, 0⟩] 7 1).map (fun out => out.created) =
      some (some ("::1".toList, "5684".toList)) := by
  obtain ⟨created, hparses⟩ := connect_server_parses_uri bracketMemory [⟨7, 0⟩] 7 ⟨7, 0⟩
    bracketUri ['x'] rfl rfl (by decide)
  rw [hparses.returns 1 rfl]
  exact congrArg some (hparses.brackets _ _ _ (.inl rfl) rfl (by decide))

end Uiso.Lwm2m
