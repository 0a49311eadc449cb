/-
  Config/Tokenize.lean --- `jsmn_parse` on JSON documents.

  On the text of a document the tokenizer returns the document in pre-order: its tokens
  are, node by node, those of `documentNodes` (`nodesOf_document`).  So on a document the
  loader's walk is a walk over the document's tree, whatever the white space.

  The proof follows the grammar.  For each part it says where the walk is behind the
  part's text: which tokens it has appended, that they are all closed, and that
  `toksuper` is what it was.
-/
import Uiso.Config.Json

set_option autoImplicit false

namespace Uiso.Config

open Uiso.Foundation

/-! ## Scanning -/

/-- What comes behind a primitive. -/
def Ends (rest : List UInt8) : Prop := ∀ c ∈ rest.head?, isDelimiter c = true

theorem Ends.nil : Ends [] := by simp [Ends]

theorem Ends.cons {c : UInt8} {rest : List UInt8} (h : isDelimiter c = true) :
    Ends (c :: rest) := by
  simpa [Ends] using h

theorem isDelimiter_of_blank {c : UInt8} (h : classify c = .blank) : isDelimiter c = true := by
  simp [isDelimiter, h]

theorem Ends.blank {text rest : List UInt8} (hblank : Blank text) (h : Ends rest) :
    Ends (text ++ rest) := by
  cases text with
  | nil => exact h
  | cons c text => exact .cons (isDelimiter_of_blank (hblank c (by simp)))

theorem isHex_ne_zero {c : UInt8} (h : isHex c = true) : c ≠ 0 := by
  rintro rfl
  exact absurd h (by decide)

theorem scanString_hex {c : UInt8} (h : isHex c = true) (left : Nat) (cs : List UInt8) :
    scanString (.hex left) (c :: cs) =
      (scanString (match left with | 0 => .text | left + 1 => .hex left) cs).map (· + 1) :=
  (if_neg (isHex_ne_zero h)).trans (if_pos h)

/-- A string is scanned up to its closing quote. -/
theorem scanString_text {raw : List UInt8} (h : StringText raw) (rest : List UInt8) :
    scanString .text (raw ++ '"'.toUInt8 :: rest) = .ok raw.length := by
  induction h with
  | nil => rfl
  | char c raw hcontrol hquote hbackslash _ ih =>
      have hc : c ≠ 0 := by
        rintro rfl
        exact absurd hcontrol (by decide)
      rw [List.cons_append, scanString, if_neg hc, if_neg hquote, if_neg hbackslash, ih]
      rfl
  | escape c raw hescaped _ ih =>
      rw [List.cons_append, List.cons_append, scanString, if_neg (by decide),
        if_neg (by decide), if_pos rfl, scanString, if_pos hescaped, ih]
      rfl
  | unicode a b c d raw hhex _ ih =>
      obtain ⟨ha, hb, hc, hd⟩ := hhex
      simp only [List.cons_append]
      rw [scanString, if_neg (by decide), if_neg (by decide), if_pos rfl, scanString,
        if_neg (by decide), if_pos rfl, scanString_hex ha, scanString_hex hb,
        scanString_hex hc, scanString_hex hd]
      dsimp only
      rw [ih]
      rfl

/-- A byte that may stand in a primitive. -/
def Plain (c : UInt8) : Prop := classify c = .other ∧ c ≠ 0 ∧ 32 ≤ c ∧ c < 127

instance : DecidablePred Plain := fun c =>
  inferInstanceAs (Decidable (classify c = .other ∧ c ≠ 0 ∧ 32 ≤ c ∧ c < 127))

theorem plain_of_digit {c : UInt8} (h : 48 ≤ c ∧ c ≤ 57) : Plain c := by
  obtain ⟨hlow, hhigh⟩ := h
  have hne : ∀ d : UInt8, d < 48 ∨ 57 < d → c ≠ d := by
    rintro d hd rfl
    rcases hd with hd | hd
    · exact absurd (UInt8.lt_of_lt_of_le hd hlow) (UInt8.lt_irrefl c)
    · exact absurd (UInt8.lt_of_lt_of_le hd hhigh) (UInt8.lt_irrefl 57)
  refine ⟨?_, hne 0 (by decide), UInt8.le_trans (by decide) hlow,
    UInt8.lt_of_le_of_lt hhigh (by decide)⟩
  simp only [classify, hne '{'.toUInt8 (by decide), hne '['.toUInt8 (by decide),
    hne '}'.toUInt8 (by decide), hne ']'.toUInt8 (by decide), hne '"'.toUInt8 (by decide),
    hne '\t'.toUInt8 (by decide), hne '\r'.toUInt8 (by decide), hne '\n'.toUInt8 (by decide),
    hne ' '.toUInt8 (by decide), hne ':'.toUInt8 (by decide), hne ','.toUInt8 (by decide),
    or_self, if_false]

theorem Digits.plain {ds : List UInt8} (h : Digits ds) : ∀ c ∈ ds, Plain c :=
  fun c hc => plain_of_digit (h.2 c hc)

theorem plain_literal {text : List UInt8}
    (h : text ∈ ["true", "false", "null", "-", "0", ".", "e", "E", "+"].map chars) :
    ∀ c ∈ text, Plain c := by
  have hall : (text.all fun c => decide (Plain c)) = true := by
    simp only [List.map_cons, List.map_nil, List.mem_cons, List.not_mem_nil, or_false] at h
    rcases h with rfl | rfl | rfl | rfl | rfl | rfl | rfl | rfl | rfl <;> decide
  intro c hc
  exact of_decide_eq_true (List.all_eq_true.mp hall c hc)

theorem NumberText.plain {text : List UInt8} (h : NumberText text) : ∀ c ∈ text, Plain c := by
  cases h with
  | parts sign int frac exp hsign hint hfrac hexp =>
      have hsign' : ∀ c ∈ sign, Plain c := by
        rcases hsign with rfl | rfl
        · simp
        · exact plain_literal (by simp)
      have hint' : ∀ c ∈ int, Plain c := by
        rcases hint with rfl | ⟨hdigits, _⟩
        · exact plain_literal (by simp)
        · exact hdigits.plain
      have hfrac' : ∀ c ∈ frac, Plain c := by
        rcases hfrac with rfl | ⟨ds, hdigits, rfl⟩
        · simp
        · exact List.forall_mem_append.mpr ⟨plain_literal (by simp), hdigits.plain⟩
      have hexp' : ∀ c ∈ exp, Plain c := by
        rcases hexp with rfl | ⟨e, s, ds, he, hs, hdigits, rfl⟩
        · simp
        · have he' : ∀ c ∈ e, Plain c := by
            rcases he with rfl | rfl <;> exact plain_literal (by simp)
          have hs' : ∀ c ∈ s, Plain c := by
            rcases hs with rfl | rfl | rfl
            · simp
            all_goals exact plain_literal (by simp)
          exact List.forall_mem_append.mpr ⟨List.forall_mem_append.mpr ⟨he', hs'⟩, hdigits.plain⟩
      simp only [List.forall_mem_append]
      exact ⟨⟨⟨hsign', hint'⟩, hfrac'⟩, hexp'⟩

theorem NumberText.ne_nil {text : List UInt8} (h : NumberText text) : text ≠ [] := by
  cases h with
  | parts sign int frac exp _ hint =>
      have hint' : int ≠ [] := by
        rcases hint with rfl | ⟨hdigits, _⟩
        · decide
        · exact hdigits.1
      simp [hint']

theorem PrimitiveText.plain {text : List UInt8} (h : PrimitiveText text) :
    text ≠ [] ∧ ∀ c ∈ text, Plain c := by
  rcases h with rfl | rfl | rfl | hnumber
  · exact ⟨by decide, plain_literal (by simp)⟩
  · exact ⟨by decide, plain_literal (by simp)⟩
  · exact ⟨by decide, plain_literal (by simp)⟩
  · exact ⟨hnumber.ne_nil, hnumber.plain⟩

theorem Plain.not_delimiter {c : UInt8} (h : Plain c) : ¬(c = 0 ∨ isDelimiter c = true) := by
  rintro (hzero | hdelimiter)
  · exact h.2.1 hzero
  · simp [isDelimiter, h.1] at hdelimiter

/-- A primitive is scanned up to the delimiter behind it. -/
theorem scanPrimitive_text {rest : List UInt8} (hends : Ends rest) :
    ∀ {text : List UInt8}, (∀ c ∈ text, Plain c) →
      scanPrimitive (text ++ rest) = .ok text.length := by
  intro text
  induction text with
  | nil =>
      intro _
      cases rest with
      | nil => rfl
      | cons c rest => simp [scanPrimitive, hends c (by simp)]
  | cons c text ih =>
      intro hplain
      have hc := hplain c (by simp)
      have hrange : ¬(c < 32 ∨ 127 ≤ c) := by
        rintro (hlow | hhigh)
        · exact absurd hc.2.2.1 (UInt8.not_le.mpr hlow)
        · exact absurd hc.2.2.2 (UInt8.not_lt.mpr hhigh)
      rw [List.cons_append, scanPrimitive, if_neg hc.not_delimiter, if_neg hrange,
        ih (fun d hd => hplain d (List.mem_cons_of_mem c hd))]
      rfl

/-! ## Advancing over a text -/

/-- The walk gets over `text` from `p` to `p'`. -/
def Advances (capacity pos : Nat) (text rest : List UInt8) (p p' : Parser) : Prop :=
  jsmnWalk (some capacity) (text ++ rest) 0 pos p =
    jsmnWalk (some capacity) rest 0 (pos + text.length) p'

section Advancing

variable {capacity pos : Nat} {text rest : List UInt8} {p p' p'' : Parser}

theorem Advances.nil : Advances capacity pos [] rest p p := rfl

theorem Advances.append {a b : List UInt8} (ha : Advances capacity pos a (b ++ rest) p p')
    (hb : Advances capacity (pos + a.length) b rest p' p'') :
    Advances capacity pos (a ++ b) rest p p'' := by
  unfold Advances at *
  rw [List.append_assoc, ha, hb, List.length_append, Nat.add_assoc]

theorem Advances.cons {c : UInt8} (hc : Advances capacity pos [c] (text ++ rest) p p')
    (h : Advances capacity (pos + 1) text rest p' p'') :
    Advances capacity pos (c :: text) rest p p'' :=
  hc.append (a := [c]) h

/-- The bytes a string or a primitive has consumed. -/
theorem jsmnWalk_skip : ∀ (text : List UInt8) (pos : Nat),
    jsmnWalk (some capacity) (text ++ rest) text.length pos p =
      jsmnWalk (some capacity) rest 0 (pos + text.length) p := by
  intro text
  induction text with
  | nil =>
      intro pos
      rfl
  | cons c text ih =>
      intro pos
      rw [List.cons_append, List.length_cons, jsmnWalk, ih]
      congr 1
      omega

theorem ne_zero_of_classify {c : UInt8} {k : ByteClass} (h : classify c = k) (hk : k ≠ .other) :
    c ≠ 0 := by
  rintro rfl
  exact hk (h.symm.trans (by decide))

/-- One byte and those it consumes. -/
theorem Advances.byte {c : UInt8} (hc : c ≠ 0)
    (h : jsmnByte (some capacity) c (text ++ rest) pos p = .ok (p', text.length)) :
    Advances capacity pos (c :: text) rest p p' := by
  unfold Advances
  rw [List.cons_append, jsmnWalk, if_neg hc, h]
  dsimp only
  rw [jsmnWalk_skip, List.length_cons]
  congr 1
  omega

theorem Advances.blank : ∀ {text : List UInt8} {pos : Nat}, Blank text →
    Advances capacity pos text rest p p := by
  intro text
  induction text with
  | nil =>
      intro pos _
      exact .nil
  | cons c text ih =>
      intro pos h
      have hc := h c (by simp)
      exact .cons (.byte (ne_zero_of_classify hc (by simp)) (by simp [jsmnByte, hc]))
        (ih fun d hd => h d (List.mem_cons_of_mem c hd))

/-- The parser behind an opening bracket. -/
def Parser.opened (p : Parser) (type : TokenType) (pos : Nat) : Parser :=
  ⟨p.tokens ++ [⟨type, pos, none, p.toksuper⟩], some p.tokens.length, p.count + 1⟩

theorem Advances.opening {c : UInt8} {type : TokenType} (hc : classify c = .opening type)
    (hroom : p.tokens.length < capacity) :
    Advances capacity pos [c] rest p (p.opened type pos) := by
  refine .byte (ne_zero_of_classify hc (by simp)) ?_
  simp [jsmnByte, hc, addToken, Nat.not_le.mpr hroom, bind, Except.bind, pure, Except.pure,
    lastToken, Parser.opened]

/-- A colon behind a key: the key becomes the parent. -/
theorem Advances.colon {k : Nat} (hlast : p.tokens.length = k + 1) :
    Advances capacity pos [':'.toUInt8] rest p { p with toksuper := some k } := by
  have hclass : classify ':'.toUInt8 = .colon := by decide
  refine .byte (by decide) ?_
  simp [jsmnByte, hclass, lastToken, hlast]

/-- A comma goes back to the parent it finds. -/
theorem Advances.comma {s : Option Nat} (h : afterComma p = s) :
    Advances capacity pos [','.toUInt8] rest p { p with toksuper := s } := by
  have hclass : classify ','.toUInt8 = .comma := by decide
  refine .byte (by decide) ?_
  simp [jsmnByte, hclass, h]

theorem Advances.string {raw : List UInt8} (h : StringText raw)
    (hroom : p.tokens.length < capacity) :
    Advances capacity pos (quoted raw) rest p
      ⟨p.tokens ++ [⟨.string, pos + 1, some (pos + 1 + raw.length), p.toksuper⟩], p.toksuper,
        p.count + 1⟩ := by
  refine .byte (by decide) ?_
  have hc : classify '"'.toUInt8 = .quote := by decide
  have hscan := scanString_text h rest
  simp [jsmnByte, hc, hscan, addToken, Nat.not_le.mpr hroom, bind, Except.bind, pure,
    Except.pure]

theorem Advances.primitive {raw : List UInt8} (h : PrimitiveText raw) (hends : Ends rest)
    (hroom : p.tokens.length < capacity) :
    Advances capacity pos raw rest p
      ⟨p.tokens ++ [⟨.primitive, pos, some (pos + raw.length), p.toksuper⟩], p.toksuper,
        p.count + 1⟩ := by
  obtain ⟨hne, hplain⟩ := h.plain
  obtain ⟨c, text, rfl⟩ := List.exists_cons_of_ne_nil hne
  have hc := hplain c (by simp)
  refine .byte hc.2.1 ?_
  have hscan := scanPrimitive_text hends hplain
  rw [List.cons_append] at hscan
  simp [jsmnByte, hc.1, hscan, addToken, Nat.not_le.mpr hroom, bind, Except.bind, pure,
    Except.pure]

end Advancing

/-! ## Closing -/

/-- The climb from a closed token to the open token `n` that the tokens behind it hang
below. -/
theorem climb_reaches {tokens : List Token} {n : Nat} {token : Token}
    (hn : tokens[n]? = some token) (hopen : token.stop = none)
    (hclosed : ∀ k t, n < k → tokens[k]? = some t →
      t.stop ≠ none ∧ ∃ q, t.parent = some q ∧ n ≤ q ∧ q < k) :
    ∀ {fuel k : Nat}, n ≤ k → k < tokens.length → k < fuel →
      climb tokens fuel k = some (.opened n token) := by
  intro fuel
  induction fuel with
  | zero =>
      intro k _ _ hk
      omega
  | succ fuel ih =>
      intro k hlow hlength hfuel
      rw [climb]
      rcases Nat.eq_or_lt_of_le hlow with rfl | hlt
      · simp [hn, hopen]
      · have hk := List.getElem?_eq_getElem hlength
        obtain ⟨hstop, q, hparent, hq, hqk⟩ := hclosed k _ hlt hk
        simp only [hk, if_neg hstop, hparent]
        exact ih hq (by omega) (by omega)

/-- The tokens are closed and read, node by node, as `nodes`. -/
structure Emits (js : List UInt8) (tokens : List Token) (nodes : List Node) : Prop where
  nodes : tokens.map (nodeOf js) = nodes
  closed : ∀ t ∈ tokens, t.stop ≠ none

theorem Emits.nil (js : List UInt8) : Emits js [] [] := ⟨rfl, by simp⟩

theorem Emits.append {js : List UInt8} {xs ys : List Token} {ns ms : List Node}
    (hx : Emits js xs ns) (hy : Emits js ys ms) : Emits js (xs ++ ys) (ns ++ ms) :=
  ⟨by rw [List.map_append, hx.nodes, hy.nodes],
    List.forall_mem_append.mpr ⟨hx.closed, hy.closed⟩⟩

theorem Emits.cons {js : List UInt8} {t : Token} {tokens : List Token} {node : Node}
    {nodes : List Node} (ht : nodeOf js t = node) (hclosed : t.stop ≠ none)
    (h : Emits js tokens nodes) : Emits js (t :: tokens) (node :: nodes) :=
  ⟨by rw [List.map_cons, ht, h.nodes], List.forall_mem_cons.mpr ⟨hclosed, h.closed⟩⟩

/-- The walk over a text has appended the tokens of `nodes`. -/
def Grows (js : List UInt8) (nodes : List Node) (toksuper : Option Nat) (p p' : Parser) : Prop :=
  ∃ tokens, Emits js tokens nodes ∧ p' = ⟨p.tokens ++ tokens, toksuper, p.count + nodes.length⟩

/-- The walk gets over `text` and appends the tokens of `nodes`. -/
def Tokenizes (js : List UInt8) (capacity pos : Nat) (text rest : List UInt8) (p : Parser)
    (toksuper : Option Nat) (nodes : List Node) : Prop :=
  ∃ p', Grows js nodes toksuper p p' ∧ Advances capacity pos text rest p p'

section Growing

variable {js : List UInt8} {capacity pos : Nat} {text rest : List UInt8} {p p' p'' : Parser}
  {nodes nodes' : List Node} {s s' : Option Nat}

theorem Grows.toksuper (h : Grows js nodes s p p') : p'.toksuper = s := by
  obtain ⟨tokens, _, rfl⟩ := h
  rfl

theorem Grows.map (h : Grows js nodes s p p') :
    p'.tokens.map (nodeOf js) = p.tokens.map (nodeOf js) ++ nodes := by
  obtain ⟨tokens, hemits, rfl⟩ := h
  rw [List.map_append, hemits.nodes]

theorem Grows.length (h : Grows js nodes s p p') :
    p'.tokens.length = p.tokens.length + nodes.length := by
  have hlength := congrArg List.length h.map
  simpa using hlength

/-- Tokens that are there keep their nodes. -/
theorem Grows.getElem? (h : Grows js nodes s p p') {k : Nat} {node : Node}
    (hk : (p.tokens.map (nodeOf js))[k]? = some node) :
    (p'.tokens.map (nodeOf js))[k]? = some node := by
  have hlt := (List.getElem?_eq_some_iff.mp hk).1
  rw [h.map, List.getElem?_append_left hlt, hk]

theorem Grows.trans (h : Grows js nodes s p p') (h' : Grows js nodes' s' p' p'') :
    Grows js (nodes ++ nodes') s' p p'' := by
  obtain ⟨tokens, hemits, rfl⟩ := h
  obtain ⟨tokens', hemits', rfl⟩ := h'
  exact ⟨tokens ++ tokens', hemits.append hemits', by simp [Nat.add_assoc]⟩

/-- One text after the other. -/
theorem Tokenizes.append {a b : List UInt8}
    (h : Tokenizes js capacity pos a (b ++ rest) p s nodes)
    (h' : ∀ q, Grows js nodes s p q →
      Tokenizes js capacity (pos + a.length) b rest q s' nodes') :
    Tokenizes js capacity pos (a ++ b) rest p s' (nodes ++ nodes') := by
  obtain ⟨q, hgrows, hadvances⟩ := h
  obtain ⟨r, hgrows', hadvances'⟩ := h' q hgrows
  exact ⟨r, hgrows.trans hgrows', hadvances.append hadvances'⟩

/-- A text without tokens in front. -/
theorem Tokenizes.lead {a b : List UInt8}
    (h : Advances capacity pos a (b ++ rest) p { p with toksuper := s })
    (h' : Tokenizes js capacity (pos + a.length) b rest { p with toksuper := s } s' nodes) :
    Tokenizes js capacity pos (a ++ b) rest p s' nodes := by
  obtain ⟨q, hgrows, hadvances⟩ := h'
  exact ⟨q, hgrows, h.append hadvances⟩

theorem Tokenizes.blank (h : Blank text) :
    Tokenizes js capacity pos text rest p p.toksuper [] :=
  ⟨p, ⟨[], .nil js, by simp⟩, .blank h⟩

/-- White space around a text. -/
theorem Tokenizes.padded {a b : List UInt8} (ha : Blank a) (hb : Blank b)
    (h : Tokenizes js capacity (pos + a.length) text (b ++ rest) p s nodes) :
    Tokenizes js capacity pos (a ++ (text ++ b)) rest p s nodes := by
  obtain ⟨q, hgrows, hadvances⟩ := h
  refine ⟨q, hgrows, .append (.blank ha) (.append ?_ (.blank hb))⟩
  exact hadvances

theorem Tokenizes.string {raw : List UInt8} (h : StringText raw) (hspan : Span js pos (quoted raw))
    (hroom : p.tokens.length < capacity) :
    Tokenizes js capacity pos (quoted raw) rest p p.toksuper [⟨.string, p.toksuper, raw⟩] := by
  have hraw : Span js (pos + 1) raw := (span_append.mp (span_cons.mp hspan).2).1
  have hnode : nodeOf js ⟨.string, pos + 1, some (pos + 1 + raw.length), p.toksuper⟩ =
      ⟨.string, p.toksuper, raw⟩ := by
    obtain ⟨post, hpost⟩ := hraw
    simp [nodeOf, ← hpost]
  exact ⟨_, ⟨_, .cons hnode (by simp) (.nil js), rfl⟩, .string h hroom⟩

theorem Tokenizes.primitive (h : PrimitiveText text) (hends : Ends rest)
    (hroom : p.tokens.length < capacity) :
    Tokenizes js capacity pos text rest p p.toksuper [⟨.primitive, p.toksuper, []⟩] :=
  ⟨_, ⟨_, .cons rfl (by simp) (.nil js), rfl⟩, .primitive h hends hroom⟩

/-- A comma stays with an array and leaves a key for its object. -/
theorem afterComma_eq {k : Nat} {node : Node} (hsuper : p.toksuper = some k)
    (hnode : (p.tokens.map (nodeOf js))[k]? = some node) :
    afterComma p =
      if node.type = .array ∨ node.type = .object then some k else node.parent := by
  cases htoken : p.tokens[k]? with
  | none => simp [htoken] at hnode
  | some token =>
      obtain rfl : nodeOf js token = node := by simpa [htoken] using hnode
      simp only [afterComma, hsuper, htoken, nodeOf]
      rfl

/-- The climb from the last token ends at the bracket the tokens behind it hang below. -/
theorem climb_bracket {tokens inner : List Token} {token : Token} (hopen : token.stop = none)
    (hinner : Emits js inner nodes)
    (hbelow : HangsBelow (some tokens.length) (tokens.length + 1) nodes) :
    climb (tokens ++ token :: inner) (tokens ++ token :: inner).length
      ((tokens ++ token :: inner).length - 1) = some (.opened tokens.length token) := by
  refine climb_reaches (by simp) hopen ?_ (by simp) (by simp) (by simp)
  intro k t hk ht
  rw [List.getElem?_append_right (Nat.le_of_lt hk)] at ht
  obtain ⟨j, hj⟩ : ∃ j, k - tokens.length = j + 1 := ⟨k - tokens.length - 1, by omega⟩
  rw [hj, List.getElem?_cons_succ] at ht
  refine ⟨hinner.closed t (List.mem_of_getElem? ht), ?_⟩
  have hnode : nodes[j]? = some (nodeOf js t) := by
    rw [← hinner.nodes, List.getElem?_map, ht, Option.map_some]
  rcases hbelow j _ hnode with hparent | ⟨q, hparent, hlow, hhigh⟩
  · exact ⟨_, hparent, Nat.le_refl _, hk⟩
  · exact ⟨q, hparent, by omega, by omega⟩

/-- A closing bracket. -/
theorem Advances.closing {start count : Nat} {c : UInt8} {type : TokenType}
    {tokens inner : List Token} {parent : Option Nat} (hc : classify c = .closing type)
    (hinner : Emits js inner nodes)
    (hbelow : HangsBelow (some tokens.length) (tokens.length + 1) nodes) :
    Advances capacity pos [c] rest
      ⟨tokens ++ ⟨type, start, none, parent⟩ :: inner, s, count⟩
      ⟨tokens ++ ⟨type, start, some (pos + 1), parent⟩ :: inner, parent, count⟩ := by
  refine .byte (ne_zero_of_classify hc (by simp)) ?_
  have hopen : (⟨type, start, none, parent⟩ : Token).stop = none := rfl
  have hclimb := climb_bracket hopen hinner hbelow
  have hlast : lastToken (tokens ++ ⟨type, start, none, parent⟩ :: inner) =
      some ((tokens ++ ⟨type, start, none, parent⟩ :: inner).length - 1) := by
    simp [lastToken]
  simp only [jsmnByte, hc, closeToken, hlast, hclimb, reduceCtorEq, if_false, ne_eq,
    not_true_eq_false, Except.map, List.length_nil]
  simp

/-- Brackets around tokens that hang below them. -/
theorem Tokenizes.bracket {c c' : UInt8} {type : TokenType} (hc : classify c = .opening type)
    (hc' : classify c' = .closing type) (htype : type ≠ .string)
    (hroom : p.tokens.length < capacity)
    (hbody : Tokenizes js capacity (pos + 1) text (c' :: rest) (p.opened type pos) s nodes)
    (hbelow : HangsBelow (some p.tokens.length) (p.tokens.length + 1) nodes) :
    Tokenizes js capacity pos (c :: (text ++ [c'])) rest p p.toksuper
      (⟨type, p.toksuper, []⟩ :: nodes) := by
  obtain ⟨_, ⟨inner, hemits, rfl⟩, hadvances⟩ := hbody
  have hnode : nodeOf js ⟨type, pos, some (pos + 1 + text.length + 1), p.toksuper⟩ =
      ⟨type, p.toksuper, []⟩ := by
    simp [nodeOf, htype]
  have hcount : p.count + (⟨type, p.toksuper, []⟩ :: nodes : List Node).length =
      p.count + 1 + nodes.length := by
    rw [List.length_cons]
    omega
  refine ⟨_, ⟨_, .cons hnode (by simp) hemits, rfl⟩, .cons (.opening hc hroom) ?_⟩
  rw [hcount]
  simp only [Parser.opened, List.append_assoc, List.singleton_append] at hadvances
  exact hadvances.append (.closing hc' hemits hbelow)

end Growing

/-! ## Documents -/

section Documents

variable {js : List UInt8} {capacity : Nat}

/-- What comes behind an element or a member ends it. -/
theorem Ends.tail {rest tail : List UInt8} {last : Prop} {next : List UInt8 → Prop}
    (hends : Ends rest)
    (htail : last ∧ tail = [] ∨ ¬last ∧ ∃ text, next text ∧ tail = ','.toUInt8 :: text) :
    Ends (tail ++ rest) := by
  rcases htail with ⟨_, rfl⟩ | ⟨_, text, _, rfl⟩
  · exact hends
  · exact .cons (by decide)

mutual

/-- The walk over the text of a value appends the value's nodes. -/
theorem Value.tokenizes : ∀ (v : Value) {pos : Nat} {text rest : List UInt8} {p : Parser},
    v.Text text → Ends rest → Span js pos text → p.tokens.length + v.size ≤ capacity →
    Tokenizes js capacity pos text rest p p.toksuper (v.nodes p.tokens.length p.toksuper)
  | .string raw, pos, text, rest, p, htext, _, hspan, hroom => by
      obtain ⟨hraw, rfl⟩ := htext
      exact .string hraw hspan hroom
  | .primitive raw, pos, text, rest, p, htext, hends, _, hroom => by
      obtain ⟨hraw, rfl⟩ := htext
      exact .primitive hraw hends hroom
  | .array elements, pos, text, rest, p, htext, _, hspan, hroom => by
      obtain ⟨body, hbody, rfl⟩ := htext
      have hspan' := (span_append.mp (span_cons.mp hspan).2).1
      simp only [Value.size] at hroom
      have hlength : (p.opened .array pos).tokens.length = p.tokens.length + 1 := by
        simp [Parser.opened]
      have howner : ((p.opened .array pos).tokens.map (nodeOf js))[p.tokens.length]? =
          some ⟨.array, p.toksuper, []⟩ := by
        simp [Parser.opened, nodeOf]
      have hinner : Tokenizes js capacity (pos + 1) body (']'.toUInt8 :: rest)
          (p.opened .array pos) (some p.tokens.length)
          (elements.nodes (p.opened .array pos).tokens.length p.tokens.length) :=
        elements.tokenizes hbody (.cons (by decide)) hspan' (by omega) rfl howner
      rw [hlength] at hinner
      exact .bracket (by decide) (by decide) (by decide) (by omega) hinner
        (elements.hangsBelow _ _)
  | .object members, pos, text, rest, p, htext, _, hspan, hroom => by
      obtain ⟨body, hbody, rfl⟩ := htext
      have hspan' := (span_append.mp (span_cons.mp hspan).2).1
      simp only [Value.size] at hroom
      have hlength : (p.opened .object pos).tokens.length = p.tokens.length + 1 := by
        simp [Parser.opened]
      have hinner : ∃ s, Tokenizes js capacity (pos + 1) body ('}'.toUInt8 :: rest)
          (p.opened .object pos) s
          (members.nodes (p.opened .object pos).tokens.length p.tokens.length) :=
        members.tokenizes hbody (.cons (by decide)) hspan' (by omega) rfl
      obtain ⟨s, hinner⟩ := hinner
      rw [hlength] at hinner
      exact .bracket (by decide) (by decide) (by decide) (by omega) hinner
        (members.hangsBelow _ _)

/-- The walk over the elements of the array `owner`. -/
theorem Elements.tokenizes : ∀ (es : Elements) {pos : Nat} {text rest : List UInt8} {p : Parser}
    {owner : Nat} {parent : Option Nat}, es.Text text → Ends rest → Span js pos text →
    p.tokens.length + es.size ≤ capacity → p.toksuper = some owner →
    (p.tokens.map (nodeOf js))[owner]? = some ⟨.array, parent, []⟩ →
    Tokenizes js capacity pos text rest p (some owner) (es.nodes p.tokens.length owner)
  | .nil, pos, text, rest, p, owner, _, htext, _, _, _, hsuper, _ => by
      rw [← hsuper]
      exact .blank htext
  | .cons value more, pos, text, rest, p, owner, _, htext, hends, hspan, hroom, hsuper,
      howner => by
      obtain ⟨a, body, b, tail, ha, hbody, hb, htail, rfl⟩ := htext
      have hassoc : a ++ (body ++ (b ++ tail)) = (a ++ (body ++ b)) ++ tail := by simp
      rw [hassoc] at hspan ⊢
      obtain ⟨hspan_item, hspan_tail⟩ := span_append.mp hspan
      have hspan_body := (span_append.mp (span_append.mp hspan_item).2).1
      simp only [Elements.size] at hroom
      have hitem : Tokenizes js capacity pos (a ++ (body ++ b)) (tail ++ rest) p (some owner)
          (value.nodes p.tokens.length (some owner)) := by
        refine .padded ha hb ?_
        rw [← hsuper]
        exact value.tokenizes hbody (.blank hb (hends.tail htail)) hspan_body (by omega)
      refine hitem.append fun q hq => ?_
      have hlength : q.tokens.length = p.tokens.length + value.size := by
        rw [hq.length, Value.length_nodes]
      rw [← hlength]
      rcases htail with ⟨rfl, rfl⟩ | ⟨_, next, hnext, rfl⟩
      · rw [← hq.toksuper]
        exact .blank Blank.nil
      · refine .lead (a := [','.toUInt8])
          (.comma (afterComma_eq hq.toksuper (hq.getElem? howner))) ?_
        exact more.tokenizes hnext hends (span_cons.mp hspan_tail).2 (by dsimp only; omega) rfl
          (hq.getElem? howner)

/-- The walk over the members of the object `owner`. -/
theorem Members.tokenizes : ∀ (ms : Members) {pos : Nat} {text rest : List UInt8} {p : Parser}
    {owner : Nat}, ms.Text text → Ends rest → Span js pos text →
    p.tokens.length + ms.size ≤ capacity → p.toksuper = some owner →
    ∃ s, Tokenizes js capacity pos text rest p s (ms.nodes p.tokens.length owner)
  | .nil, pos, text, rest, p, owner, htext, _, _, _, _ => ⟨_, .blank htext⟩
  | .cons key value more, pos, text, rest, p, owner, htext, hends, hspan, hroom, hsuper => by
      obtain ⟨a, b, c, body, d, tail, ha, hkey, hb, hc, hbody, hd, htail, rfl⟩ := htext
      have hassoc : a ++ (quoted key ++ (b ++ ':'.toUInt8 :: (c ++ (body ++ (d ++ tail))))) =
          (a ++ (quoted key ++ b)) ++ (([':'.toUInt8] ++ (c ++ (body ++ d))) ++ tail) := by
        simp
      rw [hassoc] at hspan ⊢
      obtain ⟨hspan_key, hspan⟩ := span_append.mp hspan
      obtain ⟨hspan_value, hspan_tail⟩ := span_append.mp hspan
      have hspan_raw := (span_append.mp (span_append.mp hspan_key).2).1
      have hspan_body := (span_append.mp (span_append.mp (span_append.mp hspan_value).2).2).1
      simp only [Members.size] at hroom
      -- the key hangs below the object
      have hkey_read : Tokenizes js capacity pos (a ++ (quoted key ++ b))
          ((([':'.toUInt8] ++ (c ++ (body ++ d))) ++ tail) ++ rest) p (some owner)
          [⟨.string, some owner, key⟩] := by
        refine .padded ha hb ?_
        rw [← hsuper]
        exact .string hkey hspan_raw (by omega)
      obtain ⟨q, hq, hadvance⟩ := hkey_read
      have hlength : q.tokens.length = p.tokens.length + 1 := hq.length
      -- the value hangs below the key
      have hvalue_read : Tokenizes js capacity (pos + (a ++ (quoted key ++ b)).length)
          ([':'.toUInt8] ++ (c ++ (body ++ d))) (tail ++ rest) q (some p.tokens.length)
          (value.nodes (p.tokens.length + 1) (some p.tokens.length)) := by
        refine .lead (.colon hlength) (.padded hc hd ?_)
        rw [← hlength]
        exact value.tokenizes hbody (.blank hd (hends.tail htail)) hspan_body
          (by dsimp only; omega)
      obtain ⟨r, hr, hadvance'⟩ := hvalue_read
      have hlength' : r.tokens.length = p.tokens.length + 1 + value.size := by
        rw [hr.length, hlength, Value.length_nodes]
      have hkey_node : (r.tokens.map (nodeOf js))[p.tokens.length]? =
          some ⟨.string, some owner, key⟩ := by
        refine hr.getElem? ?_
        rw [hq.map, List.getElem?_append_right (by simp)]
        simp
      -- the members behind the comma hang below the object again
      have htail_read : ∃ s, Tokenizes js capacity
          (pos + (a ++ (quoted key ++ b)).length + ([':'.toUInt8] ++ (c ++ (body ++ d))).length)
          tail rest r s (more.nodes r.tokens.length owner) := by
        rcases htail with ⟨rfl, rfl⟩ | ⟨_, next, hnext, rfl⟩
        · exact ⟨_, .blank Blank.nil⟩
        · have hroom' : r.tokens.length + more.size ≤ capacity := by omega
          obtain ⟨s, hmore⟩ := more.tokenizes (p := { r with toksuper := some owner }) hnext hends
            (span_cons.mp hspan_tail).2 hroom' rfl
          exact ⟨s, .lead (a := [','.toUInt8])
            (.comma (afterComma_eq hr.toksuper hkey_node)) hmore⟩
      obtain ⟨s, u, hu, hadvance''⟩ := htail_read
      rw [hlength'] at hu
      exact ⟨s, u, hq.trans (hr.trans hu), hadvance.append (hadvance'.append hadvance'')⟩

end

/-- On the text of a document the filling walk appends the document's nodes. -/
theorem jsmnWalk_document {ms : Members} {text : List UInt8} (h : DocumentText ms text) :
    ∃ tokens, jsmnWalk (some (Value.object ms).size) text 0 0 jsmnInit =
        .ok ⟨tokens, none, (Value.object ms).size⟩ ∧
      Emits text tokens (documentNodes ms) := by
  obtain ⟨a, body, b, ha, hbody, hb, rfl⟩ := h
  have hspan : Span (a ++ (body ++ b)) a.length body := by
    simp [Span]
  have hread : Tokenizes (a ++ (body ++ b)) (Value.object ms).size 0 (a ++ (body ++ b)) []
      jsmnInit none (documentNodes ms) := by
    refine .padded ha hb ?_
    rw [Nat.zero_add]
    exact (Value.object ms).tokenizes hbody (.blank hb .nil) hspan (by simp [jsmnInit])
  obtain ⟨_, ⟨tokens, hemits, rfl⟩, hadvances⟩ := hread
  refine ⟨tokens, ?_, hemits⟩
  rw [Advances, List.append_nil] at hadvances
  rw [hadvances]
  simp [jsmnWalk, jsmnInit, documentNodes]

/-! ## Counting -/

/-- The counting walk follows the filling one. -/
theorem ByteEffect.counted {c : UInt8} {cs : List UInt8} {pos skip : Nat} {p p' q : Parser}
    (h : ByteEffect c cs pos p p' skip) (hcount : q.count = p.count) :
    ∃ q', jsmnByte none c cs pos q = .ok (q', skip) ∧ q'.count = p'.count := by
  cases h with
  | opening type hbyte =>
      refine ⟨{ q with count := q.count + 1 }, ?_, by simp [hcount]⟩
      simp [jsmnByte, hbyte, addToken, bind, Except.bind, pure, Except.pure]
  | closing type hbyte => exact ⟨q, by simp [jsmnByte, hbyte], hcount⟩
  | closingRoot type hbyte => exact ⟨q, by simp [jsmnByte, hbyte], hcount⟩
  | quote hbyte n hscan =>
      refine ⟨{ q with count := q.count + 1 }, ?_, by simp [hcount]⟩
      simp [jsmnByte, hbyte, hscan, addToken, bind, Except.bind, pure, Except.pure]
  | blank hbyte => exact ⟨q, by simp [jsmnByte, hbyte], hcount⟩
  | colon hbyte =>
      exact ⟨{ q with toksuper := lastToken q.tokens }, by simp [jsmnByte, hbyte], hcount⟩
  | comma hbyte => exact ⟨q, by simp [jsmnByte, hbyte], hcount⟩
  | other hbyte n hscan =>
      refine ⟨{ q with count := q.count + 1 }, ?_, by simp [hcount]⟩
      simp [jsmnByte, hbyte, hscan, addToken, bind, Except.bind, pure, Except.pure]

theorem jsmnWalk_counted : ∀ {cs : List UInt8} {skip pos : Nat} {p p' q : Parser},
    jsmnWalk (some capacity) cs skip pos p = .ok p' → q.count = p.count →
    ∃ q', jsmnWalk none cs skip pos q = .ok q' ∧ q'.count = p'.count := by
  intro cs
  induction cs with
  | nil =>
      intro skip pos p p' q h hcount
      cases h
      exact ⟨q, rfl, hcount⟩
  | cons c cs ih =>
      intro skip pos p p' q h hcount
      cases skip with
      | succ skip =>
          rw [jsmnWalk] at h ⊢
          exact ih h hcount
      | zero =>
          rw [jsmnWalk] at h ⊢
          split_ifs at h ⊢ with hnul
          · cases h
            exact ⟨q, rfl, hcount⟩
          · cases hbyte : jsmnByte (some capacity) c cs pos p with
            | error e => simp [hbyte] at h
            | ok result =>
                obtain ⟨r, skip⟩ := result
                simp only [hbyte] at h
                obtain ⟨q', hq, hcount'⟩ := (jsmnByte_effect hbyte).counted hcount
                rw [hq]
                exact ih h hcount'

/-- The tokens of a document are the document in pre-order. -/
theorem nodesOf_document {ms : Members} {text : List UInt8} (h : DocumentText ms text) :
    nodesOf text = documentNodes ms := by
  obtain ⟨tokens, hwalk, hemits⟩ := jsmnWalk_document h
  obtain ⟨q, hcounting, hcount⟩ := jsmnWalk_counted hwalk (show jsmnInit.count = _ from rfl)
  have hnone : q.tokens = [] := jsmnWalk_none_tokens hcounting
  have hpos : 0 < (Value.object ms).size := Value.size_pos _
  have hfirst : jsmnParse none text = .ok ((Value.object ms).size, []) := by
    simp [jsmnParse, hcounting, hnone, hcount]
  have hsecond : jsmnParse (some (Value.object ms).size) text =
      .ok ((Value.object ms).size, tokens) := by
    simpa [jsmnParse, hwalk] using hemits.closed
  simp only [nodesOf, jsonTokens, hfirst, if_pos hpos, hsecond]
  exact hemits.nodes

/-- On a document the loader walks over the document in pre-order. -/
theorem uisoLoadConfig_document {ms : Members} {text : List UInt8} (h : DocumentText ms text)
    (c : Buffers) : uisoLoadConfig (some text) c = loadNodes (documentNodes ms) c := by
  rw [uisoLoadConfig_eq, nodesOf_document h]

end Documents

end Uiso.Config
