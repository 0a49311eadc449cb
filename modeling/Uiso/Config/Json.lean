/-
  Config/Json.lean --- JSON documents: trees, their texts, and the nodes they flatten to.

  A `Value` keeps strings, keys and primitives as the raw characters between their
  delimiters, so two texts of one value differ in white space only.  `Value.Text` is the
  grammar of JSON, read as a relation between values and texts; every value whose parts
  are well formed has a text (`Value.text_render`).

  `Value.nodes base parent` is the value in pre-order: each node has the index of the
  node above it, a value that of its key, and a key that of its object.  `base` is the
  index of the first node.
-/
import Uiso.Config.Loader
import Uiso.Foundation.Layout

set_option autoImplicit false

namespace Uiso.Config

open Uiso.Foundation

/-! ## Trees -/

mutual

/-- A JSON value. -/
inductive Value where
  | string (raw : List UInt8)
  | primitive (raw : List UInt8)
  | array (elements : Elements)
  | object (members : Members)

/-- The elements of an array. -/
inductive Elements where
  | nil
  | cons (value : Value) (rest : Elements)

/-- The members of an object. -/
inductive Members where
  | nil
  | cons (key : List UInt8) (value : Value) (rest : Members)

end

/-- The elements as a list. -/
def Elements.toList : Elements → List Value
  | .nil => []
  | .cons value rest => value :: rest.toList

/-- The members as a list. -/
def Members.toList : Members → List (List UInt8 × Value)
  | .nil => []
  | .cons key value rest => (key, value) :: rest.toList

/-! ## Texts -/

/-- White space. -/
def Blank (text : List UInt8) : Prop := ∀ c ∈ text, classify c = .blank

/-- The characters a string may have between its quotes. -/
inductive StringText : List UInt8 → Prop where
  | nil : StringText []
  | char (c : UInt8) (rest : List UInt8) (control : 0x20 ≤ c) (quote : c ≠ '"'.toUInt8)
      (backslash : c ≠ '\\'.toUInt8) (text : StringText rest) : StringText (c :: rest)
  | escape (c : UInt8) (rest : List UInt8) (escaped : isEscaped c) (text : StringText rest) :
      StringText ('\\'.toUInt8 :: c :: rest)
  | unicode (a b c d : UInt8) (rest : List UInt8)
      (hex : isHex a ∧ isHex b ∧ isHex c ∧ isHex d) (text : StringText rest) :
      StringText ('\\'.toUInt8 :: 'u'.toUInt8 :: a :: b :: c :: d :: rest)

/-- A string without escapes. -/
theorem stringText_of_plain : ∀ {raw : List UInt8},
    (raw.all fun c => 0x20 ≤ c && c != '"'.toUInt8 && c != '\\'.toUInt8) = true →
      StringText raw := by
  intro raw
  induction raw with
  | nil =>
      intro _
      exact .nil
  | cons c rest ih =>
      intro h
      simp only [List.all_cons, Bool.and_eq_true, decide_eq_true_eq, bne_iff_ne] at h
      obtain ⟨⟨⟨hcontrol, hquote⟩, hbackslash⟩, hrest⟩ := h
      exact .char c rest hcontrol hquote hbackslash (ih hrest)

/-- One digit or more. -/
def Digits (text : List UInt8) : Prop := text ≠ [] ∧ ∀ c ∈ text, 48 ≤ c ∧ c ≤ 57

/-- A number: sign, integer part, fraction and exponent. -/
inductive NumberText : List UInt8 → Prop where
  | parts (sign int frac exp : List UInt8) (hsign : sign = [] ∨ sign = chars "-")
      (hint : int = chars "0" ∨ Digits int ∧ int.head? ≠ some 48)
      (hfrac : frac = [] ∨ ∃ ds, Digits ds ∧ frac = chars "." ++ ds)
      (hexp : exp = [] ∨ ∃ e s ds, (e = chars "e" ∨ e = chars "E") ∧
        (s = [] ∨ s = chars "+" ∨ s = chars "-") ∧ Digits ds ∧ exp = e ++ s ++ ds) :
      NumberText (sign ++ int ++ frac ++ exp)

/-- A literal or a number. -/
def PrimitiveText (text : List UInt8) : Prop :=
  text = chars "true" ∨ text = chars "false" ∨ text = chars "null" ∨ NumberText text

/-- A string with its quotes. -/
def quoted (raw : List UInt8) : List UInt8 := '"'.toUInt8 :: (raw ++ ['"'.toUInt8])

mutual

/-- The texts of a value. -/
def Value.Text : Value → List UInt8 → Prop
  | .string raw, text => StringText raw ∧ text = quoted raw
  | .primitive raw, text => PrimitiveText raw ∧ text = raw
  | .array elements, text =>
      ∃ body, elements.Text body ∧ text = '['.toUInt8 :: (body ++ [']'.toUInt8])
  | .object members, text =>
      ∃ body, members.Text body ∧ text = '{'.toUInt8 :: (body ++ ['}'.toUInt8])

/-- The texts between an array's brackets.  A comma follows every element but the last. -/
def Elements.Text : Elements → List UInt8 → Prop
  | .nil, text => Blank text
  | .cons value rest, text => ∃ a body b tail, Blank a ∧ value.Text body ∧ Blank b ∧
      (rest = .nil ∧ tail = [] ∨
        rest ≠ .nil ∧ ∃ more, rest.Text more ∧ tail = ','.toUInt8 :: more) ∧
      text = a ++ (body ++ (b ++ tail))

/-- The texts between an object's braces. -/
def Members.Text : Members → List UInt8 → Prop
  | .nil, text => Blank text
  | .cons key value rest, text => ∃ a b c body d tail, Blank a ∧ StringText key ∧ Blank b ∧
      Blank c ∧ value.Text body ∧ Blank d ∧
      (rest = .nil ∧ tail = [] ∨
        rest ≠ .nil ∧ ∃ more, rest.Text more ∧ tail = ','.toUInt8 :: more) ∧
      text = a ++ (quoted key ++ (b ++ ':'.toUInt8 :: (c ++ (body ++ (d ++ tail)))))

end

/-- The texts of a document that is an object. -/
def DocumentText (members : Members) (text : List UInt8) : Prop :=
  ∃ a body b, Blank a ∧ (Value.object members).Text body ∧ Blank b ∧ text = a ++ (body ++ b)

/-! ## A text for every tree -/

mutual

/-- The strings, keys and primitives of the value are well formed. -/
def Value.Valid : Value → Prop
  | .string raw => StringText raw
  | .primitive raw => PrimitiveText raw
  | .array elements => elements.Valid
  | .object members => members.Valid

/-- The elements are well formed. -/
def Elements.Valid : Elements → Prop
  | .nil => True
  | .cons value rest => value.Valid ∧ rest.Valid

/-- The members are well formed. -/
def Members.Valid : Members → Prop
  | .nil => True
  | .cons key value rest => StringText key ∧ value.Valid ∧ rest.Valid

end

mutual

/-- The value's text without white space. -/
def Value.render : Value → List UInt8
  | .string raw => quoted raw
  | .primitive raw => raw
  | .array elements => '['.toUInt8 :: (elements.render ++ [']'.toUInt8])
  | .object members => '{'.toUInt8 :: (members.render ++ ['}'.toUInt8])

/-- The elements' text without white space. -/
def Elements.render : Elements → List UInt8
  | .nil => []
  | .cons value .nil => value.render
  | .cons value rest => value.render ++ ','.toUInt8 :: rest.render

/-- The members' text without white space. -/
def Members.render : Members → List UInt8
  | .nil => []
  | .cons key value .nil => quoted key ++ ':'.toUInt8 :: value.render
  | .cons key value rest =>
      quoted key ++ ':'.toUInt8 :: (value.render ++ ','.toUInt8 :: rest.render)

end

theorem Blank.nil : Blank [] := by simp [Blank]

mutual

theorem Value.text_render : ∀ (v : Value), v.Valid → v.Text v.render
  | .string _, h => ⟨h, rfl⟩
  | .primitive _, h => ⟨h, rfl⟩
  | .array elements, h => ⟨_, elements.text_render h, rfl⟩
  | .object members, h => ⟨_, members.text_render h, rfl⟩

theorem Elements.text_render : ∀ (es : Elements), es.Valid → es.Text es.render
  | .nil, _ => Blank.nil
  | .cons value .nil, h =>
      ⟨[], _, [], [], Blank.nil, value.text_render h.1, Blank.nil, .inl ⟨rfl, rfl⟩,
        by simp [Elements.render]⟩
  | .cons value (.cons next rest), h =>
      ⟨[], _, [], _, Blank.nil, value.text_render h.1, Blank.nil,
        .inr ⟨by simp, _, (Elements.cons next rest).text_render h.2, rfl⟩,
        by simp [Elements.render]⟩

theorem Members.text_render : ∀ (ms : Members), ms.Valid → ms.Text ms.render
  | .nil, _ => Blank.nil
  | .cons key value .nil, h =>
      ⟨[], [], [], _, [], [], Blank.nil, h.1, Blank.nil, Blank.nil, value.text_render h.2.1,
        Blank.nil, .inl ⟨rfl, rfl⟩, by simp [Members.render]⟩
  | .cons key value (.cons key' value' rest), h =>
      ⟨[], [], [], _, [], _, Blank.nil, h.1, Blank.nil, Blank.nil, value.text_render h.2.1,
        Blank.nil, .inr ⟨by simp, _, (Members.cons key' value' rest).text_render h.2.2, rfl⟩,
        by simp [Members.render]⟩

end

theorem documentText_render {ms : Members} (h : ms.Valid) :
    DocumentText ms (Value.object ms).render :=
  ⟨[], _, [], Blank.nil, (Value.object ms).text_render h, Blank.nil, by simp⟩

/-! ## Nodes -/

mutual

/-- The number of nodes of a value. -/
def Value.size : Value → Nat
  | .string _ => 1
  | .primitive _ => 1
  | .array elements => 1 + elements.size
  | .object members => 1 + members.size

/-- The number of nodes of an array's elements. -/
def Elements.size : Elements → Nat
  | .nil => 0
  | .cons value rest => value.size + rest.size

/-- The number of nodes of an object's members. -/
def Members.size : Members → Nat
  | .nil => 0
  | .cons _ value rest => 1 + value.size + rest.size

end

mutual

/-- A value in pre-order, its first node being node `base`. -/
def Value.nodes : Value → Nat → Option Nat → List Node
  | .string raw, _, parent => [⟨.string, parent, raw⟩]
  | .primitive _, _, parent => [⟨.primitive, parent, []⟩]
  | .array elements, base, parent => ⟨.array, parent, []⟩ :: elements.nodes (base + 1) base
  | .object members, base, parent => ⟨.object, parent, []⟩ :: members.nodes (base + 1) base

/-- The elements of the array `owner` in pre-order. -/
def Elements.nodes : Elements → Nat → Nat → List Node
  | .nil, _, _ => []
  | .cons value rest, base, owner =>
      value.nodes base (some owner) ++ rest.nodes (base + value.size) owner

/-- The members of the object `owner` in pre-order. -/
def Members.nodes : Members → Nat → Nat → List Node
  | .nil, _, _ => []
  | .cons key value rest, base, owner =>
      ⟨.string, some owner, key⟩ ::
        (value.nodes (base + 1) (some base) ++ rest.nodes (base + 1 + value.size) owner)

end

/-- A document in pre-order. -/
def documentNodes (members : Members) : List Node := (Value.object members).nodes 0 none

theorem Value.size_pos (v : Value) : 0 < v.size := by
  cases v <;> simp only [Value.size] <;> omega

mutual

@[simp] theorem Value.length_nodes :
    ∀ (v : Value) (base : Nat) (parent : Option Nat), (v.nodes base parent).length = v.size
  | .string _, _, _ => by simp [Value.nodes, Value.size]
  | .primitive _, _, _ => by simp [Value.nodes, Value.size]
  | .array elements, _, _ => by
      simp [Value.nodes, Value.size, elements.length_nodes, Nat.add_comm]
  | .object members, _, _ => by
      simp [Value.nodes, Value.size, members.length_nodes, Nat.add_comm]

@[simp] theorem Elements.length_nodes :
    ∀ (es : Elements) (base owner : Nat), (es.nodes base owner).length = es.size
  | .nil, _, _ => by simp [Elements.nodes, Elements.size]
  | .cons value rest, _, _ => by
      simp [Elements.nodes, Elements.size, value.length_nodes, rest.length_nodes]

@[simp] theorem Members.length_nodes :
    ∀ (ms : Members) (base owner : Nat), (ms.nodes base owner).length = ms.size
  | .nil, _, _ => by simp [Members.nodes, Members.size]
  | .cons key value rest, _, _ => by
      simp only [Members.nodes, Members.size, List.length_cons, List.length_append,
        value.length_nodes, rest.length_nodes]
      omega

end

/-! ## Where a node hangs -/

/-- Every node of a list that starts at index `base` hangs below `owner` or below an earlier
node of the list. -/
def HangsBelow (owner : Option Nat) (base : Nat) (nodes : List Node) : Prop :=
  ∀ j node, nodes[j]? = some node →
    node.parent = owner ∨ ∃ q, node.parent = some q ∧ base ≤ q ∧ q < base + j

theorem HangsBelow.nil (owner : Option Nat) (base : Nat) : HangsBelow owner base [] := by
  simp [HangsBelow]

/-- A node followed by nodes that hang below it. -/
theorem HangsBelow.cons {owner : Option Nat} {base : Nat} {type : TokenType}
    {text : List UInt8} {nodes : List Node} (h : HangsBelow (some base) (base + 1) nodes) :
    HangsBelow owner base (⟨type, owner, text⟩ :: nodes) := by
  intro j node hj
  cases j with
  | zero =>
      cases hj
      exact .inl rfl
  | succ j =>
      right
      rcases h j node hj with hparent | ⟨q, hparent, hlow, hhigh⟩
      · exact ⟨base, hparent, by omega, by omega⟩
      · exact ⟨q, hparent, by omega, by omega⟩

theorem HangsBelow.append {owner : Option Nat} {base base' : Nat} {xs ys : List Node}
    (hxs : HangsBelow owner base xs) (hys : HangsBelow owner base' ys)
    (hbase : base' = base + xs.length) : HangsBelow owner base (xs ++ ys) := by
  intro j node hj
  rcases Nat.lt_or_ge j xs.length with hlt | hge
  · rw [List.getElem?_append_left hlt] at hj
    exact hxs j node hj
  · rw [List.getElem?_append_right hge] at hj
    rcases hys _ node hj with hparent | ⟨q, hparent, hlow, hhigh⟩
    · exact .inl hparent
    · exact .inr ⟨q, hparent, by omega, by omega⟩

mutual

theorem Value.hangsBelow :
    ∀ (v : Value) (base : Nat) (parent : Option Nat), HangsBelow parent base (v.nodes base parent)
  | .string _, _, _ => .cons (.nil _ _)
  | .primitive _, _, _ => .cons (.nil _ _)
  | .array elements, base, _ => .cons (elements.hangsBelow (base + 1) base)
  | .object members, base, _ => .cons (members.hangsBelow (base + 1) base)

theorem Elements.hangsBelow :
    ∀ (es : Elements) (base owner : Nat), HangsBelow (some owner) base (es.nodes base owner)
  | .nil, _, _ => .nil _ _
  | .cons value rest, base, owner =>
      (value.hangsBelow base (some owner)).append (rest.hangsBelow (base + value.size) owner)
        (by simp)

theorem Members.hangsBelow :
    ∀ (ms : Members) (base owner : Nat), HangsBelow (some owner) base (ms.nodes base owner)
  | .nil, _, _ => .nil _ _
  | .cons key value rest, base, owner => by
      have hmember : HangsBelow (some owner) base
          (⟨.string, some owner, key⟩ :: value.nodes (base + 1) (some base)) :=
        .cons (value.hangsBelow (base + 1) (some base))
      exact hmember.append (rest.hangsBelow (base + 1 + value.size) owner) (by simp; omega)

end

end Uiso.Config
