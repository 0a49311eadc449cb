/-
  Lwm2m/Object.lean --- what the LWM2M objects share: status codes, the data
  items of a request, and the two loops their read and discover functions run.

  The data type of the LWM2M core and its encode and decode functions are a
  submodule of their own.  They enter as a `DataCodec`: the operations the
  objects call, with the law that decoding an encoded value gives the value.
-/
import Uiso.Foundation.Buffer

set_option autoImplicit false

namespace Uiso.Lwm2m

/-- The CoAP codes the object functions return. -/
inductive CoapStatus where
  | created201
  | deleted202
  | changed204
  | content205
  | badRequest400
  | notFound404
  | methodNotAllowed405
  | notAcceptable406
  | internalServerError500
  deriving DecidableEq, Repr

/-- Is it a 4.xx or 5.xx code? -/
def CoapStatus.isError : CoapStatus → Bool
  | .created201 | .deleted202 | .changed204 | .content205 => false
  | .badRequest400 | .notFound404 | .methodNotAllowed405 | .notAcceptable406
  | .internalServerError500 => true

/-- `lwm2m_write_type_t` -/
inductive WriteType where
  | partialUpdate
  | replaceResources
  | replaceInstance
  deriving DecidableEq, Repr

/-- The values of `lwm2m_data_t`, with the functions the objects call on them. -/
structure DataCodec (V : Type) where
  /-- what `lwm2m_data_new` fills an array with -/
  undefined : V
  /-- is the type `LWM2M_TYPE_MULTIPLE_RESOURCE` -/
  multipleResource : V → Bool
  /-- the bytes of a value of type `LWM2M_TYPE_STRING` or `LWM2M_TYPE_OPAQUE` -/
  asBuffer : V → Option (List UInt8)
  /-- `lwm2m_data_decode_int`; the value is an `int64_t` -/
  decodeInt : V → Option Int
  decodeBool : V → Option Bool
  encodeInt : Int → V
  encodeBool : Bool → V
  encodeString : List UInt8 → V
  /-- `lwm2m_data_encode_float`, of the bits of a `float` -/
  encodeFloat : BitVec 32 → V
  undefined_single : multipleResource undefined = false
  decodeInt_encodeInt : ∀ n : Int, -0x8000000000000000 ≤ n → n < 0x8000000000000000 →
    decodeInt (encodeInt n) = some n
  decodeBool_encodeBool : ∀ b, decodeBool (encodeBool b) = some b
  asBuffer_encodeString : ∀ bytes, 0 ∉ bytes → asBuffer (encodeString bytes) = some bytes

/-- The bytes of an ASCII text. -/
def asciiBytes (text : String) : List UInt8 := text.toList.map Char.toUInt8

/-- Values as their type and content. -/
inductive Value where
  | undefined
  | multiple
  | bytes (buffer : List UInt8)
  | int (value : Int)
  | bool (value : Bool)
  | float (bits : BitVec 32)
  deriving DecidableEq, Repr

/-- The codec that reads and writes the content of a value of the right type. -/
def valueCodec : DataCodec Value where
  undefined := .undefined
  multipleResource value := value == .multiple
  asBuffer
    | .bytes buffer => some buffer
    | _ => none
  decodeInt
    | .int value => some value
    | _ => none
  decodeBool
    | .bool value => some value
    | _ => none
  encodeInt := .int
  encodeBool := .bool
  encodeString := .bytes
  encodeFloat := .float
  undefined_single := rfl
  decodeInt_encodeInt _ _ _ := rfl
  decodeBool_encodeBool _ := rfl
  asBuffer_encodeString _ _ := rfl

/-- An item of a data array: a resource id and a value. -/
structure Item (V : Type) where
  id : Nat
  value : V
  deriving DecidableEq, Repr

/-- A data array with at least one item; the `do` loops read the first one unasked. -/
structure Items (V : Type) where
  first : Item V
  rest : List (Item V)
  deriving DecidableEq, Repr

/-- The array as a list. -/
def Items.toList {V : Type} (items : Items V) : List (Item V) := items.first :: items.rest

/-- An array of one item. -/
def Items.single {V : Type} (id : Nat) (value : V) : Items V := ⟨⟨id, value⟩, []⟩

/-! ## The read loop -/

section Read

variable {V : Type}

/-- The items are filled in one after the other until one is refused; the status is the
last item's, and the items after a refused one are left as they were. -/
def readItems (getValue : Item V → Except CoapStatus V) :
    List (Item V) → CoapStatus × List (Item V)
  | [] => (.content205, [])
  | item :: rest =>
      match getValue item with
      | .error status => (status, item :: rest)
      | .ok value =>
          let (status, filled) := readItems getValue rest
          (status, { item with value := value } :: filled)

/-- Items for the resources of a list, as `lwm2m_data_new` and the loop after it prepare
them. -/
def itemsOf (undefined : V) (ids : List Nat) : List (Item V) :=
  ids.map (fun id => ⟨id, undefined⟩)

/-- One item is read with `COAP_205_CONTENT` precisely if it has a value. -/
theorem readItems_single_status {getValue : Item V → Except CoapStatus V} (item : Item V)
    (herror : getValue item ≠ .error .content205) :
    (readItems getValue [item]).1 = .content205 ↔ ∃ value, getValue item = .ok value := by
  cases h : getValue item with
  | error status =>
      have hne : status ≠ .content205 := fun hs => herror (hs ▸ h)
      simp [readItems, h, hne]
  | ok value => simp [readItems, h]

end Read

/-! ## The discover loop -/

/-- The ids are looked up one after the other until one is not known. -/
def discoverIds (known : Nat → Bool) : List Nat → CoapStatus
  | [] => .content205
  | id :: rest => if known id then discoverIds known rest else .notFound404

theorem discoverIds_eq_content (known : Nat → Bool) (ids : List Nat) :
    discoverIds known ids = .content205 ↔ ∀ id ∈ ids, known id = true := by
  induction ids with
  | nil => simp [discoverIds]
  | cons id rest ih =>
      unfold discoverIds
      split
      · rename_i h
        simp [h, ih]
      · rename_i h
        simp [h]

end Uiso.Lwm2m
