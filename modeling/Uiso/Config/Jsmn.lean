/-
  Config/Jsmn.lean --- the bundled JSON tokenizer `jsmn.h`, compiled as `config.c`
  does: with `JSMN_PARENT_LINKS` and without `JSMN_STRICT`.

  `jsmn_parse` walks over the bytes and appends a token for every object, array, string
  and primitive.  `toksuper` is the token new tokens get as their parent: an opening
  bracket or a colon makes it the last token, a comma leaves a key for its object, and
  a closing bracket climbs from the last token to the nearest token that is still open.
  With no token array the same walk only counts.

  REPRESENTATION.  The bytes that are left are the recursion's list; the bytes a string
  or a primitive has consumed are skipped one by one.  An index of -1 is `none`, and so
  is the `end` of an object or array that is still open.  Positions and indices are not
  bounded, where the source has `int` and `unsigned`.  The field `size` is left out: in
  this configuration nobody reads it.
-/
import Mathlib.Algebra.Ring.Nat
import Mathlib.Logic.Basic

set_option autoImplicit false

namespace Uiso.Config

/-! ## Tokens -/

/-- `jsmntype_t`; no token keeps `JSMN_UNDEFINED`. -/
inductive TokenType where
  | object
  | array
  | string
  | primitive
  deriving DecidableEq, Repr

/-- `enum jsmnerr` -/
inductive JsmnError where
  | nomem
  | inval
  | part
  deriving DecidableEq, Repr

/-- `jsmntok_t` -/
structure Token where
  type : TokenType
  start : Nat
  /-- `end` -/
  stop : Option Nat
  parent : Option Nat
  deriving DecidableEq, Repr

/-! ## Bytes -/

/-- What a byte means to `jsmn_parse`. -/
inductive ByteClass where
  | opening (type : TokenType)
  | closing (type : TokenType)
  | quote
  | blank
  | colon
  | comma
  | other
  deriving DecidableEq, Repr

/-- The cases of the switch in `jsmn_parse`. -/
def classify (c : UInt8) : ByteClass :=
  if c = '{'.toUInt8 then .opening .object
  else if c = '['.toUInt8 then .opening .array
  else if c = '}'.toUInt8 then .closing .object
  else if c = ']'.toUInt8 then .closing .array
  else if c = '"'.toUInt8 then .quote
  else if c = '\t'.toUInt8 ∨ c = '\r'.toUInt8 ∨ c = '\n'.toUInt8 ∨ c = ' '.toUInt8 then .blank
  else if c = ':'.toUInt8 then .colon
  else if c = ','.toUInt8 then .comma
  else .other

/-- The bytes that end a primitive. -/
def isDelimiter (c : UInt8) : Bool :=
  match classify c with
  | .closing _ | .blank | .colon | .comma => true
  | _ => false

/-- The hexadecimal digits. -/
def isHex (c : UInt8) : Bool :=
  (48 ≤ c && c ≤ 57) || (65 ≤ c && c ≤ 70) || (97 ≤ c && c ≤ 102)

/-- The bytes that may follow a backslash, apart from `u`. -/
def isEscaped (c : UInt8) : Bool :=
  c ∈ ['"', '/', '\\', 'b', 'f', 'r', 'n', 't'].map Char.toUInt8

/-! ## Strings and primitives -/

/-- Where `jsmn_parse_string` is in the string. -/
inductive StringMode where
  | text
  /-- behind a backslash -/
  | escape
  /-- behind `\u`, with `left + 1` digits to come -/
  | hex (left : Nat)
  deriving DecidableEq, Repr

/-- `jsmn_parse_string` on the bytes behind the opening quote: how many come before the
closing one. -/
def scanString : StringMode → List UInt8 → Except JsmnError Nat
  | _, [] => .error .part
  | .text, c :: cs =>
      if c = 0 then .error .part
      else if c = '"'.toUInt8 then .ok 0
      else (scanString (if c = '\\'.toUInt8 then .escape else .text) cs).map (· + 1)
  | .escape, c :: cs =>
      if isEscaped c then (scanString .text cs).map (· + 1)
      else if c = 'u'.toUInt8 then (scanString (.hex 3) cs).map (· + 1)
      else .error .inval
  | .hex left, c :: cs =>
      if c = 0 then .error .part
      else if isHex c then
        (scanString (match left with | 0 => .text | left + 1 => .hex left) cs).map (· + 1)
      else .error .inval

/-- `jsmn_parse_primitive`: how many bytes the primitive at the front has. -/
def scanPrimitive : List UInt8 → Except JsmnError Nat
  | [] => .ok 0
  | c :: cs =>
      if c = 0 ∨ isDelimiter c then .ok 0
      else if c < 32 ∨ 127 ≤ c then .error .inval
      else (scanPrimitive cs).map (· + 1)

/-! ## The parser -/

/-- `jsmn_parser` with the token array and the local `count` of `jsmn_parse`; `toknext` is
the length of the array, and `pos` an argument of the walk. -/
structure Parser where
  tokens : List Token
  toksuper : Option Nat
  count : Nat
  deriving DecidableEq, Repr

/-- `jsmn_init` -/
def jsmnInit : Parser := ⟨[], none, 0⟩

/-- `jsmn_alloc_token` and `jsmn_fill_token`: a new token below `toksuper`.  `capacity` is
`num_tokens`, or `none` when there is no token array. -/
def addToken (capacity : Option Nat) (p : Parser) (type : TokenType) (start : Nat)
    (stop : Option Nat) : Except JsmnError Parser :=
  match capacity with
  | none => .ok { p with count := p.count + 1 }
  | some n =>
      if n ≤ p.tokens.length then .error .nomem
      else
        .ok { p with
          tokens := p.tokens ++ [⟨type, start, stop, p.toksuper⟩]
          count := p.count + 1 }

/-- The last token, as a value for `toksuper`. -/
def lastToken (tokens : List Token) : Option Nat :=
  if tokens.length = 0 then none else some (tokens.length - 1)

/-- How the climb behind a closing bracket ends. -/
inductive Climb where
  /-- at a token that is still open -/
  | opened (index : Nat) (token : Token)
  /-- at a closed token without parent -/
  | root (token : Token)
  deriving DecidableEq, Repr

/-- The climb from token `k` along the parent links.  Parents come before their children,
so as many steps as there are tokens are enough (`WellFormed.climb_ends`). -/
def climb (tokens : List Token) : Nat → Nat → Option Climb
  | 0, _ => none
  | fuel + 1, k =>
      match tokens[k]? with
      | none => none
      | some token =>
          if token.stop = none then some (.opened k token)
          else
            match token.parent with
            | none => some (.root token)
            | some parent => climb tokens fuel parent

/-- A closing bracket of the given type. -/
def closeToken (p : Parser) (type : TokenType) (pos : Nat) : Except JsmnError Parser :=
  match lastToken p.tokens with
  | none => .error .inval
  | some last =>
      match climb p.tokens p.tokens.length last with
      | none => .error .inval
      | some (.opened k token) =>
          if token.type ≠ type then .error .inval
          else
            .ok { p with
              tokens := p.tokens.set k { token with stop := some (pos + 1) }
              toksuper := token.parent }
      | some (.root token) =>
          if token.type ≠ type ∨ p.toksuper = none then .error .inval else .ok p

/-- The parent a comma goes back to when `toksuper` is neither an object nor an array. -/
def afterComma (p : Parser) : Option Nat :=
  match p.toksuper with
  | none => none
  | some k =>
      match p.tokens[k]? with
      | none => some k
      | some token =>
          if token.type = .array ∨ token.type = .object then some k else token.parent

/-- One byte of `jsmn_parse`, at `pos` and followed by `cs`: the parser after it and how
many bytes of `cs` it has consumed. -/
def jsmnByte (capacity : Option Nat) (c : UInt8) (cs : List UInt8) (pos : Nat) (p : Parser) :
    Except JsmnError (Parser × Nat) :=
  match classify c with
  | .opening type => do
      let p' ← addToken capacity p type pos none
      return ({ p' with toksuper := if capacity = none then p.toksuper
                else lastToken p'.tokens }, 0)
  | .closing type =>
      if capacity = none then .ok (p, 0) else (closeToken p type pos).map (·, 0)
  | .quote => do
      let n ← scanString .text cs
      let p' ← addToken capacity p .string (pos + 1) (some (pos + 1 + n))
      return (p', n + 1)
  | .blank => .ok (p, 0)
  | .colon => .ok ({ p with toksuper := lastToken p.tokens }, 0)
  | .comma => .ok ({ p with toksuper := if capacity = none then p.toksuper else afterComma p }, 0)
  | .other => do
      let n ← scanPrimitive (c :: cs)
      let p' ← addToken capacity p .primitive pos (some (pos + n))
      return (p', n - 1)

/-- The walk of `jsmn_parse` over the bytes that are left; the first `skip` of them have
been consumed. -/
def jsmnWalk (capacity : Option Nat) : List UInt8 → Nat → Nat → Parser →
    Except JsmnError Parser
  | [], _, _, p => .ok p
  | _ :: cs, skip + 1, pos, p => jsmnWalk capacity cs skip (pos + 1) p
  | c :: cs, 0, pos, p =>
      if c = 0 then .ok p
      else
        match jsmnByte capacity c cs pos p with
        | .error e => .error e
        | .ok (p', skip) => jsmnWalk capacity cs skip (pos + 1) p'

/-- `jsmn_parse` on a fresh parser: `count` and the token array. -/
def jsmnParse (capacity : Option Nat) (js : List UInt8) :
    Except JsmnError (Nat × List Token) :=
  match jsmnWalk capacity js 0 0 jsmnInit with
  | .error e => .error e
  | .ok p =>
      if p.tokens.any (·.stop == none) then .error .part else .ok (p.count, p.tokens)

/-! ## Scanning -/

/-- A string that is scanned ends at a quote and has no NUL before it. -/
theorem scanString_ok : ∀ {mode : StringMode} {cs : List UInt8} {n : Nat},
    scanString mode cs = .ok n →
    ∃ text post, cs = text ++ '"'.toUInt8 :: post ∧ text.length = n ∧ 0 ∉ text := by
  intro mode cs
  induction cs generalizing mode with
  | nil =>
      intro n h
      cases mode <;> simp [scanString] at h
  | cons c cs ih =>
      -- the byte belongs to the string and the rest is scanned in some mode
      have hcons : ∀ {mode' : StringMode} {n : Nat}, c ≠ 0 →
          (scanString mode' cs).map (· + 1) = .ok n →
          ∃ text post, c :: cs = text ++ '"'.toUInt8 :: post ∧ text.length = n ∧ 0 ∉ text := by
        intro mode' n hc h
        cases hscan : scanString mode' cs with
        | error e => simp [hscan, Except.map] at h
        | ok m =>
            obtain ⟨text, post, rfl, hlength, hnul⟩ := ih hscan
            have hn : m + 1 = n := by simpa [hscan, Except.map] using h
            exact ⟨c :: text, post, rfl, by simp [hlength, hn], by simp [hnul, Ne.symm hc]⟩
      intro n h
      cases mode with
      | text =>
          simp only [scanString] at h
          split_ifs at h with hnul hquote
          · have hn : 0 = n := by simpa using h
            exact ⟨[], cs, by rw [hquote]; rfl, hn, by simp⟩
          all_goals exact hcons hnul h
      | escape =>
          simp only [scanString] at h
          split_ifs at h with hescaped hunicode
          · refine hcons ?_ h
            rintro rfl
            exact absurd hescaped (by decide)
          · refine hcons ?_ h
            rintro rfl
            exact absurd hunicode (by decide)
      | hex left =>
          simp only [scanString] at h
          split_ifs at h with hnul hhex
          exact hcons hnul h

/-! ## What a byte does -/

/-- What one byte does to a parser with a token array. -/
inductive ByteEffect (c : UInt8) (cs : List UInt8) (pos : Nat) (p : Parser) :
    Parser → Nat → Prop where
  | opening (type : TokenType) (byte : classify c = .opening type) :
      ByteEffect c cs pos p
        ⟨p.tokens ++ [⟨type, pos, none, p.toksuper⟩], some p.tokens.length, p.count + 1⟩ 0
  | closing (type : TokenType) (byte : classify c = .closing type) (last k : Nat)
      (token : Token) (found : climb p.tokens p.tokens.length last = some (.opened k token)) :
      ByteEffect c cs pos p
        ⟨p.tokens.set k { token with stop := some (pos + 1) }, token.parent, p.count⟩ 0
  | closingRoot (type : TokenType) (byte : classify c = .closing type) :
      ByteEffect c cs pos p p 0
  | quote (byte : classify c = .quote) (n : Nat) (scanned : scanString .text cs = .ok n) :
      ByteEffect c cs pos p
        ⟨p.tokens ++ [⟨.string, pos + 1, some (pos + 1 + n), p.toksuper⟩], p.toksuper,
          p.count + 1⟩ (n + 1)
  | blank (byte : classify c = .blank) : ByteEffect c cs pos p p 0
  | colon (byte : classify c = .colon) :
      ByteEffect c cs pos p { p with toksuper := lastToken p.tokens } 0
  | comma (byte : classify c = .comma) :
      ByteEffect c cs pos p { p with toksuper := afterComma p } 0
  | other (byte : classify c = .other) (n : Nat) (scanned : scanPrimitive (c :: cs) = .ok n) :
      ByteEffect c cs pos p
        ⟨p.tokens ++ [⟨.primitive, pos, some (pos + n), p.toksuper⟩], p.toksuper,
          p.count + 1⟩ (n - 1)

theorem addToken_some {capacity : Nat} {p p' : Parser} {type : TokenType} {start : Nat}
    {stop : Option Nat} (h : addToken (some capacity) p type start stop = .ok p') :
    p.tokens.length < capacity ∧
      p' = ⟨p.tokens ++ [⟨type, start, stop, p.toksuper⟩], p.toksuper, p.count + 1⟩ := by
  simp only [addToken] at h
  split_ifs at h with hfull
  cases h
  exact ⟨by omega, rfl⟩

theorem lastToken_concat (tokens : List Token) (t : Token) :
    lastToken (tokens ++ [t]) = some tokens.length := by
  simp [lastToken]

theorem closeToken_cases {p p' : Parser} {type : TokenType} {pos : Nat}
    (h : closeToken p type pos = .ok p') :
    p' = p ∨ ∃ last k token, climb p.tokens p.tokens.length last = some (.opened k token) ∧
      p' = ⟨p.tokens.set k { token with stop := some (pos + 1) }, token.parent, p.count⟩ := by
  unfold closeToken at h
  cases hlast : lastToken p.tokens with
  | none => simp [hlast] at h
  | some last =>
      cases hclimb : climb p.tokens p.tokens.length last with
      | none => simp [hlast, hclimb] at h
      | some found =>
          cases found with
          | opened k token =>
              simp only [hlast, hclimb] at h
              split_ifs at h
              cases h
              exact .inr ⟨last, k, token, hclimb, rfl⟩
          | root token =>
              simp only [hlast, hclimb] at h
              split_ifs at h
              cases h
              exact .inl rfl

theorem jsmnByte_effect {capacity : Nat} {c : UInt8} {cs : List UInt8} {pos : Nat}
    {p p' : Parser} {skip : Nat} (h : jsmnByte (some capacity) c cs pos p = .ok (p', skip)) :
    ByteEffect c cs pos p p' skip := by
  unfold jsmnByte at h
  cases hclass : classify c with
  | opening type =>
      cases hadd : addToken (some capacity) p type pos none with
      | error e => simp [hclass, hadd, bind, Except.bind] at h
      | ok q =>
          obtain ⟨_, rfl⟩ := addToken_some hadd
          simp only [hclass, hadd, bind, Except.bind, pure, Except.pure, lastToken_concat,
            reduceCtorEq, if_false, Except.ok.injEq, Prod.mk.injEq] at h
          obtain ⟨rfl, rfl⟩ := h
          exact .opening type hclass
  | closing type =>
      cases hclose : closeToken p type pos with
      | error e => simp [hclass, hclose, Except.map] at h
      | ok q =>
          simp only [hclass, hclose, Except.map, reduceCtorEq, if_false, Except.ok.injEq,
            Prod.mk.injEq] at h
          obtain ⟨rfl, rfl⟩ := h
          rcases closeToken_cases hclose with rfl | ⟨last, k, token, hclimb, rfl⟩
          · exact .closingRoot type hclass
          · exact .closing type hclass last k token hclimb
  | quote =>
      cases hscan : scanString .text cs with
      | error e => simp [hclass, hscan, bind, Except.bind] at h
      | ok n =>
          cases hadd : addToken (some capacity) p .string (pos + 1) (some (pos + 1 + n)) with
          | error e => simp [hclass, hscan, hadd, bind, Except.bind] at h
          | ok q =>
              obtain ⟨_, rfl⟩ := addToken_some hadd
              simp only [hclass, hscan, hadd, bind, Except.bind, pure, Except.pure,
                Except.ok.injEq, Prod.mk.injEq] at h
              obtain ⟨rfl, rfl⟩ := h
              exact .quote hclass n hscan
  | blank =>
      simp only [hclass, Except.ok.injEq, Prod.mk.injEq] at h
      obtain ⟨rfl, rfl⟩ := h
      exact .blank hclass
  | colon =>
      simp only [hclass, Except.ok.injEq, Prod.mk.injEq] at h
      obtain ⟨rfl, rfl⟩ := h
      exact .colon hclass
  | comma =>
      simp only [hclass, reduceCtorEq, if_false, Except.ok.injEq, Prod.mk.injEq] at h
      obtain ⟨rfl, rfl⟩ := h
      exact .comma hclass
  | other =>
      cases hscan : scanPrimitive (c :: cs) with
      | error e => simp [hclass, hscan, bind, Except.bind] at h
      | ok n =>
          cases hadd : addToken (some capacity) p .primitive pos (some (pos + n)) with
          | error e => simp [hclass, hscan, hadd, bind, Except.bind] at h
          | ok q =>
              obtain ⟨_, rfl⟩ := addToken_some hadd
              simp only [hclass, hscan, hadd, bind, Except.bind, pure, Except.pure,
                Except.ok.injEq, Prod.mk.injEq] at h
              obtain ⟨rfl, rfl⟩ := h
              exact .other hclass n hscan

/-- The invariant rule of the walk over `js`. -/
theorem jsmnWalk_invariant {capacity : Nat} {js : List UInt8} {I : Parser → Prop}
    (hbyte : ∀ {pre cs : List UInt8} {c : UInt8} {p p' : Parser} {skip : Nat},
      js = pre ++ c :: cs → I p → ByteEffect c cs pre.length p p' skip → I p') :
    ∀ {rest : List UInt8} {pre : List UInt8} {skip : Nat} {p p' : Parser}, js = pre ++ rest →
      I p → jsmnWalk (some capacity) rest skip pre.length p = .ok p' → I p' := by
  intro rest
  induction rest with
  | nil =>
      intro pre skip p p' _ hI h
      cases h
      exact hI
  | cons c cs ih =>
      intro pre skip p p' hjs hI h
      have hjs' : js = (pre ++ [c]) ++ cs := by simp [hjs]
      have hlength : (pre ++ [c]).length = pre.length + 1 := by simp
      cases skip with
      | succ skip =>
          rw [jsmnWalk, ← hlength] at h
          exact ih hjs' hI h
      | zero =>
          rw [jsmnWalk] at h
          split_ifs at h
          · cases h
            exact hI
          · cases hstep : jsmnByte (some capacity) c cs pre.length p with
            | error e => simp [hstep] at h
            | ok result =>
                obtain ⟨q, skip⟩ := result
                simp only [hstep, ← hlength] at h
                exact ih hjs' (hbyte hjs hI (jsmnByte_effect hstep)) h

/-! ## What a token array looks like -/

/-- The token is a string between quotes in `js`, without a NUL. -/
def Token.Quoted (js : List UInt8) (t : Token) : Prop :=
  ∃ pre text post, js = pre ++ text ++ '"'.toUInt8 :: post ∧ t.start = pre.length ∧
    t.stop = some (pre.length + text.length) ∧ 0 ∉ text

/-- A climb ends at a token of the array, and at an open one if it says so. -/
theorem climb_opened {tokens : List Token} {k : Nat} {token : Token} :
    ∀ {fuel from_ : Nat}, climb tokens fuel from_ = some (.opened k token) →
      tokens[k]? = some token ∧ token.stop = none := by
  intro fuel
  induction fuel with
  | zero =>
      intro from_ h
      cases h
  | succ fuel ih =>
      intro from_ h
      rw [climb] at h
      cases htoken : tokens[from_]? with
      | none => simp [htoken] at h
      | some t =>
          simp only [htoken] at h
          split_ifs at h with hopen
          · cases h
            exact ⟨htoken, hopen⟩
          · cases hparent : t.parent with
            | none => simp [hparent] at h
            | some parent =>
                simp only [hparent] at h
                exact ih h

/-- What holds of the tokens at every byte: each is counted, strings are quoted, and
parents come before their children. -/
structure WellFormed (js : List UInt8) (p : Parser) : Prop where
  count : p.count = p.tokens.length
  quoted : ∀ t ∈ p.tokens, t.type = .string → t.Quoted js
  parent : ∀ (k : Nat) (t : Token), p.tokens[k]? = some t → ∀ q, t.parent = some q → q < k
  toksuper : ∀ q : Nat, p.toksuper = some q → q < p.tokens.length

/-- The climb of `jsmn_parse` always ends. -/
theorem WellFormed.climb_ends {js : List UInt8} {p : Parser} (h : WellFormed js p) :
    ∀ {fuel k : Nat}, k < fuel → k < p.tokens.length → climb p.tokens fuel k ≠ none := by
  intro fuel
  induction fuel with
  | zero =>
      intro k hk
      omega
  | succ fuel ih =>
      intro k hk hlength
      have htoken := List.getElem?_eq_getElem hlength
      rw [climb, htoken]
      dsimp only
      split_ifs
      · simp
      · cases hparent : (p.tokens[k]).parent with
        | none => simp
        | some q =>
            have hq := h.parent k _ htoken q hparent
            exact ih (by omega) (by omega)

theorem WellFormed.add {js : List UInt8} {p : Parser} (h : WellFormed js p) {type : TokenType}
    {start : Nat} {stop : Option Nat} {toksuper : Option Nat}
    (hquoted : type = .string → Token.Quoted js ⟨type, start, stop, p.toksuper⟩)
    (hsuper : ∀ q, toksuper = some q → q < p.tokens.length + 1) :
    WellFormed js
      ⟨p.tokens ++ [⟨type, start, stop, p.toksuper⟩], toksuper, p.count + 1⟩ := by
  refine ⟨by simp [h.count], ?_, ?_, by simpa using hsuper⟩
  · intro t ht
    rcases List.mem_append.mp ht with ht | ht
    · exact h.quoted t ht
    · obtain rfl := List.mem_singleton.mp ht
      exact hquoted
  · intro k t hk q hq
    rcases Nat.lt_or_ge k p.tokens.length with hlt | hge
    · rw [List.getElem?_append_left hlt] at hk
      exact h.parent k t hk q hq
    · rw [List.getElem?_append_right hge] at hk
      obtain ⟨hzero, rfl⟩ : k - p.tokens.length = 0 ∧ _ = t := by
        simpa [List.getElem?_singleton] using hk
      have := h.toksuper q hq
      omega

theorem WellFormed.byte {js pre cs : List UInt8} {c : UInt8} {p p' : Parser} {skip : Nat}
    (hjs : js = pre ++ c :: cs) (h : WellFormed js p)
    (heffect : ByteEffect c cs pre.length p p' skip) : WellFormed js p' := by
  cases heffect with
  | opening type =>
      refine h.add (fun htype => ?_) ?_
      · subst htype
        exact absurd ‹classify c = _› (by unfold classify; split_ifs <;> simp)
      · intro q hq
        cases hq
        omega
  | closing type _ last k token hclimb =>
      obtain ⟨htoken, hopen⟩ := climb_opened hclimb
      refine ⟨by simp [h.count], ?_, ?_, ?_⟩
      · intro t ht htype
        rcases List.mem_or_eq_of_mem_set ht with ht | rfl
        · exact h.quoted t ht htype
        · -- a token that is still open is no string
          obtain ⟨_, _, _, _, _, hstop, _⟩ :=
            h.quoted token (List.mem_of_getElem? htoken) htype
          simp [hopen] at hstop
      · intro j t hj q hq
        rw [List.getElem?_set] at hj
        split_ifs at hj with hjk
        · cases hj
          exact hjk ▸ h.parent k token htoken q hq
        · exact h.parent j t hj q hq
      · intro q hq
        have hlt := h.parent k token htoken q hq
        have hk := (List.getElem?_eq_some_iff.mp htoken).1
        simp only [List.length_set]
        omega
  | closingRoot => exact h
  | quote _ n hscan =>
      obtain ⟨text, post, rfl, hlength, hnul⟩ := scanString_ok hscan
      refine h.add (fun _ => ?_) (fun q hq => Nat.lt_succ_of_lt (h.toksuper q hq))
      exact ⟨pre ++ [c], text, post, by simp [hjs], by simp, by simp [hlength], hnul⟩
  | blank => exact h
  | colon =>
      refine ⟨h.count, h.quoted, h.parent, ?_⟩
      intro q hq
      unfold lastToken at hq
      split_ifs at hq with hempty
      cases hq
      exact Nat.sub_one_lt hempty
  | comma =>
      refine ⟨h.count, h.quoted, h.parent, ?_⟩
      intro q hq
      cases hsuper : p.toksuper with
      | none => simp [afterComma, hsuper] at hq
      | some k =>
          have hk := h.toksuper k hsuper
          have htoken := List.getElem?_eq_getElem hk
          simp only [afterComma, hsuper, htoken] at hq
          split_ifs at hq
          · cases hq
            exact hk
          · exact Nat.lt_trans (h.parent k _ htoken q hq) hk
  | other _ n _ =>
      refine h.add (fun htype => ?_) (fun q hq => Nat.lt_succ_of_lt (h.toksuper q hq))
      cases htype

/-! ## Counting -/

/-- What the walk does without a token array. -/
theorem jsmnByte_none_tokens {c : UInt8} {cs : List UInt8} {pos : Nat} {p p' : Parser}
    {skip : Nat} (h : jsmnByte none c cs pos p = .ok (p', skip)) : p'.tokens = p.tokens := by
  unfold jsmnByte at h
  cases hclass : classify c with
  | quote =>
      cases hscan : scanString .text cs with
      | error e => simp [hclass, hscan, bind, Except.bind] at h
      | ok n =>
          simp only [hclass, hscan, addToken, bind, Except.bind, pure, Except.pure,
            Except.ok.injEq, Prod.mk.injEq] at h
          rw [← h.1]
  | other =>
      cases hscan : scanPrimitive (c :: cs) with
      | error e => simp [hclass, hscan, bind, Except.bind] at h
      | ok n =>
          simp only [hclass, hscan, addToken, bind, Except.bind, pure, Except.pure,
            Except.ok.injEq, Prod.mk.injEq] at h
          rw [← h.1]
  | _ =>
      simp only [hclass, addToken, bind, Except.bind, pure, Except.pure, if_true,
        Except.ok.injEq, Prod.mk.injEq] at h
      rw [← h.1]

theorem jsmnWalk_none_tokens : ∀ {cs : List UInt8} {skip pos : Nat} {p p' : Parser},
    jsmnWalk none cs skip pos p = .ok p' → p'.tokens = p.tokens := by
  intro cs
  induction cs with
  | nil =>
      intro skip pos p p' h
      cases h
      rfl
  | cons c cs ih =>
      intro skip pos p p' h
      cases skip with
      | succ skip => exact ih h
      | zero =>
          rw [jsmnWalk] at h
          split_ifs at h
          · cases h
            rfl
          · cases hbyte : jsmnByte none c cs pos p with
            | error e => simp [hbyte] at h
            | ok result =>
                obtain ⟨q, skip⟩ := result
                simp only [hbyte] at h
                exact (ih h).trans (jsmnByte_none_tokens hbyte)

theorem jsmnParse_none_tokens {js : List UInt8} {count : Nat} {tokens : List Token}
    (h : jsmnParse none js = .ok (count, tokens)) : tokens = [] := by
  unfold jsmnParse at h
  cases hwalk : jsmnWalk none js 0 0 jsmnInit with
  | error e => simp [hwalk] at h
  | ok p =>
      simp only [hwalk] at h
      split_ifs at h
      cases h
      exact jsmnWalk_none_tokens hwalk

theorem jsmnParse_wellFormed {js : List UInt8} {capacity count : Nat} {tokens : List Token}
    (h : jsmnParse (some capacity) js = .ok (count, tokens)) :
    count = tokens.length ∧ ∀ t ∈ tokens, t.type = .string → t.Quoted js := by
  unfold jsmnParse at h
  cases hwalk : jsmnWalk (some capacity) js 0 0 jsmnInit with
  | error e => simp [hwalk] at h
  | ok p =>
      have hinit : WellFormed js jsmnInit := by constructor <;> simp [jsmnInit]
      have hwell : WellFormed js p :=
        jsmnWalk_invariant (fun hjs hI => hI.byte hjs) (show js = [] ++ js from rfl) hinit hwalk
      simp only [hwalk] at h
      split_ifs at h
      cases h
      exact ⟨hwell.count, hwell.quoted⟩

end Uiso.Config
