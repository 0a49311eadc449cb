/-
  Config/Document.lean --- finding a document's tree in its array of nodes.

  The loader sees a document in pre-order and tells a token's place in the tree by its
  index and its parent link.  `Rooted nodes o v` says that node `o` is the root of the
  value `v`: the nodes of `v` stand there, and no other node hangs below one of them.  A
  document is rooted at node 0, and a member's value or an element is rooted where the
  entries of its object or array say (`Rooted.member`, `Rooted.element`).  So the nodes
  that hang below a node are known at every depth (`Rooted.child_object`, ..).
-/
import Uiso.Config.Json
import Uiso.Config.Sections

set_option autoImplicit false

namespace Uiso.Config

open Uiso.Foundation

/-! ## Entries -/

/-- The number of nodes of a member. -/
def memberSize (member : List UInt8 × Value) : Nat := 1 + member.2.size

/-- The members of an object with the index of each key, the first being `base`. -/
def Members.entries (ms : Members) (base : Nat) : List (Nat × List UInt8 × Value) :=
  layout memberSize base ms.toList

/-- The elements of an array with the index of each, the first being `base`. -/
def Elements.entries (es : Elements) (base : Nat) : List (Nat × Value) :=
  layout Value.size base es.toList

@[simp] theorem memberSize_mk (key : List UInt8) (v : Value) :
    memberSize (key, v) = 1 + v.size := rfl

theorem memberSize_pos (member : List UInt8 × Value) : 0 < memberSize member := by
  rw [memberSize]
  omega

theorem Members.extent_toList : ∀ ms : Members, extent memberSize ms.toList = ms.size
  | .nil => rfl
  | .cons key value rest => by
      rw [Members.toList, extent, rest.extent_toList, memberSize, Members.size]

theorem Elements.extent_toList : ∀ es : Elements, extent Value.size es.toList = es.size
  | .nil => rfl
  | .cons value rest => by rw [Elements.toList, extent, rest.extent_toList, Elements.size]

section Entries

variable {nodes : List Node} {i owner : Nat} {key : List UInt8} {v : Value}

theorem Members.span_entries : ∀ {ms : Members} {base : Nat},
    Span nodes base (ms.nodes base owner) → (i, key, v) ∈ ms.entries base →
    nodes[i]? = some ⟨.string, some owner, key⟩ ∧ Span nodes (i + 1) (v.nodes (i + 1) (some i))
  | .nil, _, _, h => by cases h
  | .cons k w rest, base, hspan, h => by
      obtain ⟨hkey, hspan⟩ := span_cons.mp hspan
      obtain ⟨hvalue, hrest⟩ := span_append.mp hspan
      rcases List.mem_cons.mp h with heq | h
      · cases heq
        exact ⟨hkey.getElem? (j := 0) rfl, hvalue⟩
      · rw [Value.length_nodes] at hrest
        rw [memberSize, ← Nat.add_assoc] at h
        exact Members.span_entries hrest h

theorem Elements.span_entries : ∀ {es : Elements} {base : Nat},
    Span nodes base (es.nodes base owner) → (i, v) ∈ es.entries base →
    Span nodes i (v.nodes i (some owner))
  | .nil, _, _, h => by cases h
  | .cons w rest, base, hspan, h => by
      obtain ⟨hvalue, hrest⟩ := span_append.mp hspan
      rcases List.mem_cons.mp h with heq | h
      · cases heq
        exact hvalue
      · rw [Value.length_nodes] at hrest
        exact Elements.span_entries hrest h

end Entries

/-! ## Parent links inside a value -/

theorem parentAt_of_getElem? {nodes : List Node} {i : Nat} {node : Node}
    (h : nodes[i]? = some node) : parentAt nodes i = node.parent := by
  simp [parentAt, h]

/-- The type of a value. -/
def Value.type : Value → TokenType
  | .string _ => .string
  | .primitive _ => .primitive
  | .array _ => .array
  | .object _ => .object

/-- The characters of a value that is a string. -/
def Value.text : Value → List UInt8
  | .string raw => raw
  | _ => []

/-- The first node of a value. -/
theorem Value.nodes_zero (v : Value) (o : Nat) (parent : Option Nat) :
    (v.nodes o parent)[0]? = some ⟨v.type, parent, v.text⟩ := by
  cases v <;> rfl

/-- The nodes behind the root of a value hang below nodes of the value. -/
theorem Value.hangs_inside {v : Value} {o j : Nat} {parent : Option Nat} {node : Node}
    (h : (v.nodes o parent)[j + 1]? = some node) :
    ∃ q, node.parent = some q ∧ o ≤ q ∧ q < o + (j + 1) := by
  have hbelow : ∀ {rest : List Node}, HangsBelow (some o) (o + 1) rest →
      rest[j]? = some node → ∃ q, node.parent = some q ∧ o ≤ q ∧ q < o + (j + 1) := by
    intro rest hrest hj
    rcases hrest j node hj with hparent | ⟨q, hparent, hlow, hhigh⟩
    · exact ⟨o, hparent, by omega, by omega⟩
    · exact ⟨q, hparent, by omega, by omega⟩
  cases v with
  | string | primitive => cases h
  | array elements => exact hbelow (elements.hangsBelow _ _) h
  | object members => exact hbelow (members.hangsBelow _ _) h

/-- A stretch of `length` nodes from `i` on whose first node hangs below `parent` and whose
others hang below nodes of the stretch. -/
def Branch (nodes : List Node) (parent : Option Nat) (i length : Nat) : Prop :=
  ∀ j, i ≤ j → j < i + length → (j = i ∧ parentAt nodes j = parent) ∨
    (i < j ∧ ∃ q, parentAt nodes j = some q ∧ i ≤ q ∧ q < j)

theorem Value.branch {nodes : List Node} {v : Value} {o : Nat} {parent : Option Nat}
    (h : Span nodes o (v.nodes o parent)) : Branch nodes parent o v.size := by
  intro i hlow hhigh
  obtain ⟨j, rfl⟩ := Nat.exists_eq_add_of_le hlow
  have hj : j < (v.nodes o parent).length := by
    rw [Value.length_nodes]
    omega
  have hnode := List.getElem?_eq_getElem hj
  rw [parentAt_of_getElem? (h.getElem? hnode)]
  generalize (v.nodes o parent)[j] = node at hnode
  cases j with
  | zero =>
      rw [Value.nodes_zero] at hnode
      cases hnode
      exact .inl ⟨rfl, rfl⟩
  | succ j => exact .inr ⟨by omega, Value.hangs_inside hnode⟩

/-- A key and its value. -/
theorem Branch.key {nodes : List Node} {parent : Option Nat} {i length : Nat}
    (hkey : parentAt nodes i = parent) (h : Branch nodes (some i) (i + 1) length) :
    Branch nodes parent i (1 + length) := by
  intro j hlow hhigh
  rcases Nat.eq_or_lt_of_le hlow with rfl | hlt
  · exact .inl ⟨rfl, hkey⟩
  · right
    rcases h j hlt (by omega) with ⟨rfl, hparent⟩ | ⟨_, q, hparent, hq, hqj⟩
    · exact ⟨by omega, i, hparent, by omega, by omega⟩
    · exact ⟨by omega, q, hparent, by omega, hqj⟩

/-! ## Branches side by side -/

/-- Below node `o` stand items one behind the other, each a branch that hangs below `o`, and
nothing else hangs below them. -/
structure Tiled {α : Type} (nodes : List Node) (o : Nat) (len : α → Nat) (xs : List α) :
    Prop where
  branch : ∀ i x, (i, x) ∈ layout len (o + 1) xs → Branch nodes (some o) i (len x)
  inside : ∀ i q, parentAt nodes i = some q → o ≤ q → q < o + 1 + extent len xs →
    o < i ∧ i < o + 1 + extent len xs

section Tiled

variable {α : Type} {nodes : List Node} {o i j : Nat} {len : α → Nat} {x : α} {xs : List α}

/-- What hangs below `o` are the items. -/
theorem Tiled.child (h : Tiled nodes o len xs) (hpos : ∀ x, 0 < len x) :
    parentAt nodes j = some o ↔ ∃ x, (j, x) ∈ layout len (o + 1) xs := by
  constructor
  · intro hparent
    obtain ⟨hlow, hhigh⟩ := h.inside j o hparent (Nat.le_refl o) (by omega)
    obtain ⟨i, x, hx, hij, hji⟩ := layout_locate xs (Nat.succ_le_of_lt hlow) hhigh
    have hbase := (layout_range hx).1
    rcases h.branch i x hx j hij hji with ⟨rfl, _⟩ | ⟨_, q, hparent', hq, _⟩
    · exact ⟨x, hx⟩
    · rw [hparent] at hparent'
      cases hparent'
      omega
  · rintro ⟨x, hx⟩
    rcases h.branch j x hx j (Nat.le_refl j) (by have := hpos x; omega) with
      ⟨_, hparent⟩ | ⟨hlt, _⟩
    · exact hparent
    · omega

/-- What hangs below a node of an item is a later node of the item. -/
theorem Tiled.inside_item (h : Tiled nodes o len xs) (hpos : ∀ x, 0 < len x)
    (hx : (i, x) ∈ layout len (o + 1) xs) {q : Nat} (hparent : parentAt nodes j = some q)
    (hlow : i ≤ q) (hhigh : q < i + len x) : q < j ∧ j < i + len x := by
  obtain ⟨hbase, hend⟩ := layout_range hx
  obtain ⟨hoj, hjo⟩ := h.inside j q hparent (by omega) (by omega)
  obtain ⟨k, y, hy, hkj, hjk⟩ := layout_locate xs (Nat.succ_le_of_lt hoj) hjo
  have hbase' := (layout_range hy).1
  rcases h.branch k y hy j hkj hjk with ⟨_, hparent'⟩ | ⟨_, r, hparent', hkr, hrj⟩
  · rw [hparent] at hparent'
    cases hparent'
    omega
  · rw [hparent] at hparent'
    cases hparent'
    cases layout_same hpos hx hy hlow hhigh hkr (by omega)
    exact ⟨hrj, hjk⟩

end Tiled

/-! ## Where a value is rooted -/

/-- Node `o` is the root of the value `v`. -/
structure Rooted (nodes : List Node) (o : Nat) (v : Value) : Prop where
  span : Span nodes o (v.nodes o (parentAt nodes o))
  inside : ∀ i q, parentAt nodes i = some q → o ≤ q → q < o + v.size → o < i ∧ i < o + v.size

section Rooted

variable {nodes : List Node} {o i j : Nat} {k : List UInt8} {v : Value} {ms : Members}
  {es : Elements}

/-- The node a value is rooted at. -/
theorem Rooted.root (h : Rooted nodes o v) :
    nodes[o]? = some ⟨v.type, parentAt nodes o, v.text⟩ :=
  h.span.getElem? (v.nodes_zero o _)

theorem Rooted.members (h : Rooted nodes o (.object ms)) :
    Tiled nodes o memberSize ms.toList := by
  have hspan : Span nodes (o + 1) (ms.nodes (o + 1) o) := (span_cons.mp h.span).2
  refine ⟨fun i member hentry => ?_, fun i q hparent hlow hhigh => ?_⟩
  · obtain ⟨key, v⟩ := member
    obtain ⟨hkey, hvalue⟩ := Members.span_entries hspan hentry
    exact .key (parentAt_of_getElem? hkey) (Value.branch hvalue)
  · rw [Members.extent_toList, Nat.add_assoc] at *
    exact h.inside i q hparent hlow hhigh

theorem Rooted.elements (h : Rooted nodes o (.array es)) :
    Tiled nodes o Value.size es.toList := by
  have hspan : Span nodes (o + 1) (es.nodes (o + 1) o) := (span_cons.mp h.span).2
  refine ⟨fun i v hentry => ?_, fun i q hparent hlow hhigh => ?_⟩
  · exact Value.branch (Elements.span_entries hspan hentry)
  · rw [Elements.extent_toList, Nat.add_assoc] at *
    exact h.inside i q hparent hlow hhigh

/-- The key of a member. -/
theorem Rooted.key (h : Rooted nodes o (.object ms)) (hentry : (i, k, v) ∈ ms.entries (o + 1)) :
    nodes[i]? = some ⟨.string, some o, k⟩ :=
  (Members.span_entries (span_cons.mp h.span).2 hentry).1

/-- The nodes that hang below an object are the keys of its members. -/
theorem Rooted.child_object (h : Rooted nodes o (.object ms)) :
    parentAt nodes i = some o ↔ ∃ k v, (i, k, v) ∈ ms.entries (o + 1) := by
  rw [h.members.child memberSize_pos, Prod.exists]
  rfl

/-- The nodes that hang below an array are its elements. -/
theorem Rooted.child_array (h : Rooted nodes o (.array es)) :
    parentAt nodes i = some o ↔ ∃ v, (i, v) ∈ es.entries (o + 1) :=
  h.elements.child Value.size_pos

/-- The value of a member is rooted right behind its key. -/
theorem Rooted.member (h : Rooted nodes o (.object ms))
    (hentry : (i, k, v) ∈ ms.entries (o + 1)) : Rooted nodes (i + 1) v := by
  obtain ⟨hkey, hvalue⟩ := Members.span_entries (span_cons.mp h.span).2 hentry
  have hfirst : parentAt nodes (i + 1) = some i := by
    rcases Value.branch hvalue (i + 1) (Nat.le_refl _) (by have := v.size_pos; omega) with
      ⟨_, hparent⟩ | ⟨hlt, _⟩
    · exact hparent
    · omega
  refine ⟨hfirst ▸ hvalue, fun j q hparent hlow hhigh => ?_⟩
  have hinside := h.members.inside_item memberSize_pos hentry hparent (by omega)
    (by rw [memberSize_mk]; omega)
  rw [memberSize_mk] at hinside
  omega

/-- An element is rooted where the entries say. -/
theorem Rooted.element (h : Rooted nodes o (.array es)) (hentry : (i, v) ∈ es.entries (o + 1)) :
    Rooted nodes i v := by
  have hparent : parentAt nodes i = some o := h.child_array.mpr ⟨v, hentry⟩
  have hvalue := Elements.span_entries (span_cons.mp h.span).2 hentry
  refine ⟨hparent ▸ hvalue, fun j q hparent hlow hhigh => ?_⟩
  obtain ⟨hqj, hj⟩ := h.elements.inside_item Value.size_pos hentry hparent hlow hhigh
  omega

/-- What hangs below the key of a member is its value. -/
theorem Rooted.child_key (h : Rooted nodes o (.object ms))
    (hentry : (i, k, v) ∈ ms.entries (o + 1)) : parentAt nodes j = some i ↔ j = i + 1 := by
  obtain ⟨hkey, hvalue⟩ := Members.span_entries (span_cons.mp h.span).2 hentry
  have hpos := v.size_pos
  constructor
  · intro hparent
    obtain ⟨hlow, hhigh⟩ := h.members.inside_item memberSize_pos hentry hparent (Nat.le_refl i)
      (by rw [memberSize_mk]; omega)
    rw [memberSize_mk] at hhigh
    rcases Value.branch hvalue j hlow (by omega) with ⟨heq, _⟩ | ⟨_, q, hparent', hq, _⟩
    · exact heq
    · rw [hparent] at hparent'
      cases hparent'
      omega
  · rintro rfl
    rcases Value.branch hvalue (i + 1) (Nat.le_refl _) (by omega) with ⟨_, hparent⟩ | ⟨hlt, _⟩
    · exact hparent
    · omega

/-- Nothing hangs below a string or a primitive. -/
theorem Rooted.child_leaf (h : Rooted nodes o v) (hleaf : v.size = 1) :
    parentAt nodes i ≠ some o := by
  intro hparent
  obtain ⟨hlow, hhigh⟩ := h.inside i o hparent (Nat.le_refl o) (by omega)
  omega

/-- A document is rooted at node 0. -/
theorem rooted_document (ms : Members) : Rooted (documentNodes ms) 0 (.object ms) := by
  have hspan : Span (documentNodes ms) 0 ((Value.object ms).nodes 0 none) := List.prefix_rfl
  have hroot : parentAt (documentNodes ms) 0 = none := rfl
  refine ⟨hroot ▸ hspan, fun i q hparent hlow hhigh => ?_⟩
  have hlength : (documentNodes ms).length = (Value.object ms).size := Value.length_nodes _ _ _
  have hi : i < 0 + (Value.object ms).size := by
    by_contra hout
    have hnone : (documentNodes ms)[i]? = none := List.getElem?_eq_none_iff.mpr (by omega)
    simp [parentAt, hnone] at hparent
  rcases Value.branch hspan i (Nat.zero_le i) hi with ⟨_, hnone⟩ | ⟨hlt, _⟩
  · rw [hparent] at hnone
    cases hnone
  · exact ⟨hlt, hi⟩

end Rooted

end Uiso.Config
