/-
  Config/Loader.lean --- `uiso_load_config`: from the bytes of CONFIG.TXT to the six
  configuration buffers.

  The loader runs `jsmn_parse` twice, to count the tokens and to fill an array of that
  size, and then walks over the array once.  It recognises nesting by index arithmetic
  only: a token belongs to the `wifi` section when its parent is the token right behind
  the last `wifi` key seen.  The value of a key is taken to be the token right behind it.

  READERS.  The walk is written over what it reads of a token (`Reader`), and run with
  two readers.  `tokenReader` reads as the source does: keys are compared with `strncmp`
  from the token's start, whatever the token's length, and copied with `strncpy`.
  `nodeReader` reads a `Node`, which carries the characters of a string token.  On the
  tokens of `jsmn_parse` the two agree (`uisoLoadConfig_eq`), so everything else in this
  directory speaks about nodes.

  FAULTS.  Reading behind the token array and writing behind a buffer end the walk with
  a `Fault`.  The file system and the allocator are taken to succeed, except that a file
  that cannot be read leaves the buffers alone.
-/
import Mathlib.Data.List.TakeWhile
import Mathlib.Logic.Function.Basic
import Uiso.Config.Jsmn
import Uiso.Foundation.Buffer

set_option autoImplicit false

namespace Uiso.Config

open Uiso.Foundation

/-! ## The buffers -/

/-- The configuration buffers. -/
inductive Slot where
  /-- `config_wifi_ssid` -/
  | wifiSsid
  /-- `config_wifi_key` -/
  | wifiKey
  /-- `config_lwm2m_uri` -/
  | lwm2mUri
  /-- `config_lwm2m_psk_id` -/
  | lwm2mPskId
  /-- `config_lwm2m_psk_key` -/
  | lwm2mPskKey
  /-- `config_ntp_url` -/
  | ntpUrl
  deriving DecidableEq, Repr

/-- `sizeof` -/
def Slot.capacity : Slot → Nat
  | .wifiSsid => 32
  | .wifiKey => 32
  | .lwm2mUri => 128
  | .lwm2mPskId => 128
  | .lwm2mPskKey => 64
  | .ntpUrl => 64

/-- The contents of the buffers. -/
def Buffers := (slot : Slot) → Buffer slot.capacity

/-- The static buffers at start-up. -/
def Buffers.zero : Buffers := fun slot => Buffer.zero slot.capacity

/-- The front of one buffer replaced. -/
def Buffers.write (c : Buffers) (slot : Slot) (bytes : List UInt8) : Buffers :=
  Function.update c slot ((c slot).write bytes)

@[simp] theorem Buffers.write_same (c : Buffers) (slot : Slot) (bytes : List UInt8) :
    c.write slot bytes slot = (c slot).write bytes :=
  Function.update_self ..

@[simp] theorem Buffers.write_other (c : Buffers) {slot other : Slot} (bytes : List UInt8)
    (h : other ≠ slot) : c.write slot bytes other = c other :=
  Function.update_of_ne h ..

/-- What the loader must not do. -/
inductive Fault where
  /-- a read of `json_tokens[index]` behind the last token -/
  | tokenIndex (index : Nat)
  /-- a copy past the end of a buffer -/
  | overflow (slot : Slot)
  deriving DecidableEq, Repr

/-- `strncpy(slot, .., n)`, where `bytes` are the `n` bytes it writes. -/
def strncpyTo (slot : Slot) (n : Nat) (bytes : List UInt8) (c : Buffers) : Except Fault Buffers :=
  if slot.capacity < n then .error (.overflow slot)
  else .ok (c.write slot bytes)

/-! ## What is read of a token -/

/-- The names keys are compared with. -/
inductive Name where
  | wifi
  | lwm2m
  | ntp
  | ssid
  | key
  | uri
  | psk
  | url
  | id
  deriving DecidableEq, Repr

/-- The characters of a text. -/
def chars (text : String) : List UInt8 := text.toList.map Char.toUInt8

/-- The name's characters. -/
def Name.chars : Name → List UInt8
  | .wifi => Config.chars "wifi"
  | .lwm2m => Config.chars "lwm2m"
  | .ntp => Config.chars "ntp"
  | .ssid => Config.chars "ssid"
  | .key => Config.chars "key"
  | .uri => Config.chars "uri"
  | .psk => Config.chars "psk"
  | .url => Config.chars "url"
  | .id => Config.chars "id"

/-- What the walk reads of a token of type `τ`. -/
structure Reader (τ : Type) where
  type : τ → TokenType
  parent : τ → Option Nat
  /-- `0 == strncmp(json_key, name, strlen(name))` -/
  startsWith : τ → Name → Bool
  /-- `end - start` -/
  length : τ → Nat
  /-- the bytes `strncpy` writes when it copies `n` of the token's -/
  copied : τ → Nat → List UInt8

/-- The bytes `strncpy` writes for a source and a count: the source up to its first NUL,
filled up with zeros. -/
def strncpyBytes (source : List UInt8) (n : Nat) : List UInt8 :=
  let text := (source.take n).takeWhile (· ≠ 0)
  text ++ List.replicate (n - text.length) 0

/-- The tokens of `read_buffer` as the source reads them. -/
def tokenReader (readBuffer : List UInt8) : Reader Token where
  type := Token.type
  parent := Token.parent
  startsWith t name := name.chars.isPrefixOf (readBuffer.drop t.start)
  length t := t.stop.getD 0 - t.start
  copied t n := strncpyBytes (readBuffer.drop t.start) n

/-- A token with the characters it stands for, if it is a string. -/
structure Node where
  type : TokenType
  parent : Option Nat
  text : List UInt8
  deriving DecidableEq, Repr

/-- Nodes as they present themselves to the walk. -/
def nodeReader : Reader Node where
  type := Node.type
  parent := Node.parent
  startsWith node name := name.chars.isPrefixOf node.text
  length node := node.text.length
  copied node n := node.text.take n

/-- The node of a token. -/
def nodeOf (readBuffer : List UInt8) (t : Token) : Node where
  type := t.type
  parent := t.parent
  text :=
    if t.type = .string then (readBuffer.drop t.start).take (t.stop.getD 0 - t.start) else []

/-! ## The walk -/

/-- The locals of the walk and the buffers.  `none` is the initial `INT8_MIN`, which no
parent link meets, also not when 1 is added to it. -/
structure LoadState where
  wifiKey : Option Nat
  lwm2mKey : Option Nat
  ntpKey : Option Nat
  lwm2mPskKey : Option Nat
  ntpUrlKey : Option Nat
  ntpUrlArray : Option Nat
  config : Buffers

/-- Before the first token. -/
def LoadState.start (c : Buffers) : LoadState := ⟨none, none, none, none, none, none, c⟩

/-- `key + 1 == parent` -/
def behind (key parent : Option Nat) : Bool :=
  match key, parent with
  | some k, some p => k + 1 == p
  | _, _ => false

/-- `key == parent` -/
def atKey (key parent : Option Nat) : Bool :=
  match key, parent with
  | some k, some p => k == p
  | _, _ => false

section Walk

variable {τ : Type} (R : Reader τ)

/-- The copy at the end of three of the branches: if the next token is a string and there
is a destination, as much of it as `dest_len` lets through. -/
def copyNext (i : Nat) (next : Option τ) (dest : Option (Slot × Nat)) (st : LoadState) :
    Except Fault LoadState :=
  match next with
  | none => .error (.tokenIndex (i + 1))
  | some value =>
      match dest with
      | some (slot, destLen) =>
          if R.type value = .string then
            let srcLen := if destLen < R.length value then destLen else R.length value
            (strncpyTo slot srcLen (R.copied value srcLen) st.config).map
              ({ st with config := · })
          else .ok st
      | none => .ok st

/-- The destination of a key of the `wifi` section. -/
def wifiDest (t : τ) : Option (Slot × Nat) :=
  if R.startsWith t .ssid then some (.wifiSsid, Slot.wifiKey.capacity)
  else if R.startsWith t .key then some (.wifiKey, Slot.wifiKey.capacity)
  else none

/-- The destination of a key of the `lwm2m` section. -/
def lwm2mDest (t : τ) : Option (Slot × Nat) :=
  if R.startsWith t .uri then some (.lwm2mUri, Slot.lwm2mUri.capacity) else none

/-- The destination of a key of the `lwm2m.psk` section. -/
def pskDest (t : τ) : Option (Slot × Nat) :=
  if R.startsWith t .id then some (.lwm2mPskId, Slot.lwm2mPskId.capacity)
  else if R.startsWith t .key then some (.lwm2mPskKey, Slot.lwm2mPskKey.capacity)
  else none

/-- The body of the loop for token `i`, `next` being token `i + 1`. -/
def loadStep (i : Nat) (t : τ) (next : Option τ) (st : LoadState) : Except Fault LoadState :=
  if R.parent t = some 0 ∧ R.type t = .string then
    if R.startsWith t .wifi then .ok { st with wifiKey := some i }
    else if R.startsWith t .lwm2m then .ok { st with lwm2mKey := some i }
    else if R.startsWith t .ntp then .ok { st with ntpKey := some i }
    else .ok st
  else if behind st.wifiKey (R.parent t) ∧ R.type t = .string then
    copyNext R i next (wifiDest R t) st
  else if behind st.lwm2mKey (R.parent t) ∧ R.type t = .string then
    -- a third comparison, with `bootstrap`, has an empty branch
    let st := if ¬R.startsWith t .uri ∧ R.startsWith t .psk then { st with lwm2mPskKey := some i }
      else st
    copyNext R i next (lwm2mDest R t) st
  else if behind st.ntpKey (R.parent t) ∧ R.type t = .string then
    if R.startsWith t .url then .ok { st with ntpUrlKey := some i } else .ok st
  else if atKey st.ntpUrlKey (R.parent t) ∧ R.type t = .array then
    .ok { st with ntpUrlArray := some i }
  else if atKey st.ntpUrlArray (R.parent t) ∧ R.type t = .string then
    -- the one copy without a bound
    (strncpyTo .ntpUrl (R.length t) (R.copied t (R.length t)) st.config).map
      ({ st with config := · })
  else if behind st.lwm2mPskKey (R.parent t) ∧ R.type t = .string then
    copyNext R i next (pskDest R t) st
  else .ok st

/-- The loop over the tokens from `i` on; `after` is the token behind them. -/
def loadLoop (after : Option τ) : Nat → List τ → LoadState → Except Fault LoadState
  | _, [], st => .ok st
  | i, t :: ts, st =>
      match loadStep R i t (ts.head?.or after) st with
      | .error fault => .error fault
      | .ok st' => loadLoop after (i + 1) ts st'

/-- The loop over two stretches of tokens. -/
theorem loadLoop_append {after : Option τ} : ∀ {xs ys : List τ} {i : Nat} {st : LoadState},
    loadLoop R after i (xs ++ ys) st =
      (loadLoop R (ys.head?.or after) i xs st).bind (loadLoop R after (i + xs.length) ys) := by
  intro xs
  induction xs with
  | nil =>
      intro ys i st
      rfl
  | cons x xs ih =>
      intro ys i st
      have hnext : (xs ++ ys).head?.or after = xs.head?.or (ys.head?.or after) := by
        cases xs <;> rfl
      have hlength : i + (x :: xs).length = i + 1 + xs.length := by
        rw [List.length_cons]
        omega
      rw [List.cons_append, loadLoop, loadLoop, hnext, hlength]
      split
      · rfl
      · exact ih

end Walk

/-! ## The loader -/

/-- The token array the loader walks over: none when `jsmn_parse` fails or finds nothing. -/
def jsonTokens (readBuffer : List UInt8) : List Token :=
  match jsmnParse none readBuffer with
  | .error _ => []
  | .ok (count, _) =>
      match jsmnParse (if 0 < count then some count else none) readBuffer with
      | .error _ => []
      | .ok (_, tokens) => tokens

/-- `uiso_load_config` with the given content of CONFIG.TXT; `none` when the file cannot
be read. -/
def uisoLoadConfig (file : Option (List UInt8)) (c : Buffers) : Except Fault Buffers :=
  match file with
  | none => .ok c
  | some readBuffer =>
      (loadLoop (tokenReader readBuffer) none 0 (jsonTokens readBuffer) (.start c)).map
        (·.config)

/-! ## Readers that agree -/

section Agreement

variable {τ σ : Type} {R : Reader τ} {R' : Reader σ}

/-- The two readers tell the walk the same about a token. -/
structure Agrees (R : Reader τ) (R' : Reader σ) (t : τ) (t' : σ) : Prop where
  type : R.type t = R'.type t'
  parent : R.parent t = R'.parent t'
  startsWith : R.type t = .string → ∀ name, R.startsWith t name = R'.startsWith t' name
  length : R.type t = .string → R.length t = R'.length t'
  copied : R.type t = .string → ∀ n, n ≤ R.length t → R.copied t n = R'.copied t' n

theorem copyNext_agrees {f : τ → σ} {next : Option τ}
    (h : ∀ t ∈ next, Agrees R R' t (f t)) (i : Nat) (dest : Option (Slot × Nat))
    (st : LoadState) : copyNext R i next dest st = copyNext R' i (next.map f) dest st := by
  cases next with
  | none => rfl
  | some value =>
      have hvalue := h value rfl
      cases dest with
      | none => rfl
      | some dest =>
          obtain ⟨slot, destLen⟩ := dest
          simp only [copyNext, Option.map_some, ← hvalue.type]
          by_cases hstring : R.type value = .string
          · simp only [hstring, if_true, ← hvalue.length hstring]
            rw [hvalue.copied hstring _ (by split <;> omega)]
          · simp only [hstring, if_false]

theorem loadStep_agrees {f : τ → σ} {t : τ} {next : Option τ} (ht : Agrees R R' t (f t))
    (hnext : ∀ t ∈ next, Agrees R R' t (f t)) (i : Nat) (st : LoadState) :
    loadStep R i t next st = loadStep R' i (f t) (next.map f) st := by
  have hcopy := copyNext_agrees hnext i
  by_cases hstring : R.type t = .string
  · have hstarts := ht.startsWith hstring
    have hcopied := ht.copied hstring _ (Nat.le_refl _)
    simp only [loadStep, wifiDest, lwm2mDest, pskDest, ← ht.type, ← ht.parent, ← hstarts, hcopy,
      ← ht.length hstring, ← hcopied]
  · simp only [loadStep, ← ht.type, ← ht.parent, hstring, and_false, if_false]

/-- On tokens on which the readers agree, the walks agree. -/
theorem loadLoop_agrees {f : τ → σ} {after : Option τ}
    (hafter : ∀ t ∈ after, Agrees R R' t (f t)) :
    ∀ {ts : List τ} {i : Nat} {st : LoadState}, (∀ t ∈ ts, Agrees R R' t (f t)) →
      loadLoop R after i ts st = loadLoop R' (after.map f) i (ts.map f) st := by
  intro ts
  induction ts with
  | nil =>
      intro i st _
      rfl
  | cons t ts ih =>
      intro i st h
      have hnext : ∀ t ∈ ts.head?.or after, Agrees R R' t (f t) := by
        intro u hu
        cases ts with
        | nil => exact hafter u (by simpa using hu)
        | cons v vs =>
            have huv : v = u := by simpa using hu
            exact huv ▸ h v (by simp)
      have hmap : (ts.head?.or after).map f = (ts.map f).head?.or (after.map f) := by
        cases ts <;> rfl
      rw [loadLoop, List.map_cons, loadLoop, loadStep_agrees (h t (by simp)) hnext, hmap]
      split
      · rfl
      · exact ih (fun u hu => h u (List.mem_cons_of_mem t hu))

end Agreement

/-! ## Tokens as nodes -/

theorem Name.quote_not_mem (name : Name) : '"'.toUInt8 ∉ name.chars := by
  cases name <;> decide

/-- A name that contains no quote is a prefix of a quoted text precisely if it is one of
the text. -/
theorem isPrefixOf_quoted : ∀ {name : List UInt8} (text post : List UInt8),
    '"'.toUInt8 ∉ name →
      name.isPrefixOf (text ++ '"'.toUInt8 :: post) = name.isPrefixOf text := by
  intro name
  induction name with
  | nil =>
      intro text post _
      simp
  | cons c name ih =>
      intro text post hquote
      cases text with
      | nil =>
          have hc : c ≠ '"'.toUInt8 := fun h => hquote (by simp [h])
          simp [List.isPrefixOf, hc]
      | cons d text =>
          have hrest := ih text post (fun h => hquote (List.mem_cons_of_mem c h))
          simp only [List.cons_append, List.isPrefixOf, hrest]

theorem strncpyBytes_of_nul_free {text post : List UInt8} (h : 0 ∉ text) {n : Nat}
    (hn : n ≤ text.length) : strncpyBytes (text ++ post) n = text.take n := by
  have htake : (text ++ post).take n = text.take n := List.take_append_of_le_length hn
  have hall : (text.take n).takeWhile (· ≠ 0) = text.take n := by
    rw [List.takeWhile_eq_self_iff]
    intro c hc
    have hmem := List.mem_of_mem_take hc
    simpa using fun hzero : c = 0 => h (hzero ▸ hmem)
  simp only [strncpyBytes, htake, hall]
  simp [hn]

theorem agrees_nodeOf {readBuffer : List UInt8} {t : Token}
    (h : t.type = .string → t.Quoted readBuffer) :
    Agrees (tokenReader readBuffer) nodeReader t (nodeOf readBuffer t) := by
  by_cases hstring : t.type = .string
  · obtain ⟨pre, text, post, rfl, hstart, hstop, hnul⟩ := h hstring
    have hdrop : (pre ++ text ++ '"'.toUInt8 :: post).drop pre.length =
        text ++ '"'.toUInt8 :: post := by simp
    have hlength : pre.length + text.length - pre.length = text.length := by omega
    have htext : (nodeOf (pre ++ text ++ '"'.toUInt8 :: post) t).text = text := by
      simp only [nodeOf, hstring, if_true, hstart, hstop, hdrop, Option.getD_some, hlength]
      exact List.take_left
    refine ⟨rfl, rfl, fun _ name => ?_, fun _ => ?_, fun _ n hn => ?_⟩
    · simp only [tokenReader, nodeReader, htext, hstart, hdrop]
      exact isPrefixOf_quoted text post name.quote_not_mem
    · simp only [tokenReader, nodeReader, htext, hstart, hstop, Option.getD_some, hlength]
    · simp only [tokenReader, nodeReader, htext, hstart, hstop, hdrop, Option.getD_some,
        hlength] at hn ⊢
      exact strncpyBytes_of_nul_free hnul hn
  · refine ⟨rfl, rfl, fun h' => ?_, fun h' => ?_, fun h' => ?_⟩ <;> exact absurd h' hstring

/-- The nodes of a file. -/
def nodesOf (readBuffer : List UInt8) : List Node :=
  (jsonTokens readBuffer).map (nodeOf readBuffer)

/-- The walk over nodes, and what it leaves in the buffers. -/
def loadNodes (nodes : List Node) (c : Buffers) : Except Fault Buffers :=
  (loadLoop nodeReader none 0 nodes (.start c)).map (·.config)

theorem jsonTokens_quoted {readBuffer : List UInt8} :
    ∀ t ∈ jsonTokens readBuffer, t.type = .string → t.Quoted readBuffer := by
  unfold jsonTokens
  cases hcount : jsmnParse none readBuffer with
  | error e => simp
  | ok result =>
      obtain ⟨count, tokens⟩ := result
      dsimp only
      split_ifs
      · cases hparse : jsmnParse (some count) readBuffer with
        | error e => simp
        | ok result =>
            obtain ⟨_, tokens⟩ := result
            exact (jsmnParse_wellFormed hparse).2
      · -- without a token array there are no tokens
        rw [hcount, jsmnParse_none_tokens hcount]
        simp

/-- The loader sees of a file only its nodes. -/
theorem uisoLoadConfig_eq (readBuffer : List UInt8) (c : Buffers) :
    uisoLoadConfig (some readBuffer) c = loadNodes (nodesOf readBuffer) c := by
  have hagrees : ∀ t ∈ jsonTokens readBuffer,
      Agrees (tokenReader readBuffer) nodeReader t (nodeOf readBuffer t) :=
    fun t ht => agrees_nodeOf (jsonTokens_quoted t ht)
  simp only [uisoLoadConfig, loadNodes, nodesOf]
  rw [loadLoop_agrees (by simp) hagrees]
  rfl

end Uiso.Config
