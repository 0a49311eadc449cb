/-
  Lwm2m/ServerObject.lean --- the LWM2M Server object
  (src/lwm2m/lightclient/object_server.c).

  The object is the list of its instances.  `lwm2m_malloc` and `lwm2m_data_new`
  may fail: `allocated` says whether they returned memory.  LWM2M_VERSION_1_0 is not
  defined, so a binding item is not compared with the known bindings.

  Whether an item of a write is accepted depends on the item alone, and what an
  accepted one does is to overwrite one field (`Update`).  A write is therefore the
  updates of the items before the first refused one, and each field ends with the
  last value written to it (`writeItems_eq`, `applyAll_eq_self_iff`).
-/
import Uiso.Lwm2m.Object
import Uiso.Foundation.KeyedList
import Uiso.Foundation.Trace

set_option autoImplicit false

namespace Uiso.Lwm2m

open Uiso.Foundation

/-! ## object_server.c -/

/-- `LWM2M_SERVER_SHORT_ID_ID` -/
@[match_pattern] abbrev serverShortIdId : Nat := 0

/-- `LWM2M_SERVER_LIFETIME_ID` -/
@[match_pattern] abbrev serverLifetimeId : Nat := 1

/-- `LWM2M_SERVER_MIN_PERIOD_ID` -/
@[match_pattern] abbrev serverMinPeriodId : Nat := 2

/-- `LWM2M_SERVER_MAX_PERIOD_ID` -/
@[match_pattern] abbrev serverMaxPeriodId : Nat := 3

/-- `LWM2M_SERVER_DISABLE_ID` -/
@[match_pattern] abbrev serverDisableId : Nat := 4

/-- `LWM2M_SERVER_TIMEOUT_ID` -/
@[match_pattern] abbrev serverTimeoutId : Nat := 5

/-- `LWM2M_SERVER_STORING_ID` -/
@[match_pattern] abbrev serverStoringId : Nat := 6

/-- `LWM2M_SERVER_BINDING_ID` -/
@[match_pattern] abbrev serverBindingId : Nat := 7

/-- `LWM2M_SERVER_UPDATE_ID` -/
@[match_pattern] abbrev serverUpdateId : Nat := 8

/-- `server_instance_t` -/
structure ServerInstance where
  instanceId : Nat
  shortServerId : UInt16
  lifetime : UInt32
  storing : Bool
  binding : Buffer 4
  deriving DecidableEq

/-- An instance after `memset`, with its id. -/
def ServerInstance.blank (instanceId : Nat) : ServerInstance :=
  ⟨instanceId, 0, 0, false, Buffer.zero 4⟩

section Functions

variable [KeyedList ServerInstance.instanceId]

/-- `lwm2m_list_find` on the instance list. -/
def findInstance (instanceId : Nat) (instances : List ServerInstance) : Option ServerInstance :=
  KeyedList.find ServerInstance.instanceId instanceId instances

variable {V : Type} (C : DataCodec V)

/-- `prv_get_value`.  A binding without a NUL is read to the end of its array here; no
instance of the object has one (`serverJ_step`). -/
def prvGetValue (item : Item V) (target : ServerInstance) : Except CoapStatus V :=
  match item.id with
  | serverShortIdId => .ok (C.encodeInt target.shortServerId.toNat)
  | serverLifetimeId => .ok (C.encodeInt target.lifetime.toNat)
  | serverDisableId => .error .methodNotAllowed405
  | serverStoringId => .ok (C.encodeBool target.storing)
  | serverBindingId =>
      .ok (C.encodeString (target.binding.cString.getD target.binding.bytes))
  | serverUpdateId => .error .methodNotAllowed405
  | _ => .error .notFound404

/-- The resources `prv_server_read` returns for a whole instance. -/
def serverReadList : List Nat :=
  [serverShortIdId, serverLifetimeId, serverStoringId, serverBindingId]

/-- One round of the loop of `prv_server_read`. -/
def serverReadItem (target : ServerInstance) (item : Item V) : Except CoapStatus V :=
  if C.multipleResource item.value then .error .notFound404 else prvGetValue C item target

/-- `prv_server_read`: the status and the data array. -/
def prvServerRead (allocated : Bool) (instances : List ServerInstance) (instanceId : Nat)
    (items : List (Item V)) : CoapStatus × List (Item V) :=
  match findInstance instanceId instances with
  | none => (.notFound404, items)
  | some target =>
      match items with
      | [] =>
          if allocated then readItems (serverReadItem C target) (itemsOf C.undefined serverReadList)
          else (.internalServerError500, [])
      | item :: rest => readItems (serverReadItem C target) (item :: rest)

/-- The resources `prv_server_discover` knows; the same ids stand in its list and in its
`switch`. -/
def serverDiscoverList : List Nat :=
  [serverShortIdId, serverLifetimeId, serverMinPeriodId, serverMaxPeriodId, serverDisableId,
    serverTimeoutId, serverStoringId, serverBindingId, serverUpdateId]

/-- `prv_server_discover`: the status and the ids of the data array.  It does not look at
the instance id. -/
def prvServerDiscover (allocated : Bool) (ids : List Nat) : CoapStatus × List Nat :=
  match ids with
  | [] => if allocated then (.content205, serverDiscoverList) else (.internalServerError500, [])
  | id :: rest => (discoverIds serverDiscoverList.contains (id :: rest), id :: rest)

/-- `prv_set_int_value` -/
def prvSetIntValue (value : V) : Except CoapStatus UInt32 :=
  match C.decodeInt value with
  | some n =>
      if 0 ≤ n ∧ n ≤ 0xFFFFFFFF then .ok (UInt32.ofNat n.toNat) else .error .notAcceptable406
  | none => .error .badRequest400

/-- The assignments of the loop of `prv_server_write`. -/
inductive Update where
  | shortServerId (value : UInt16)
  | lifetime (value : UInt32)
  | storing (value : Bool)
  | binding (buffer : List UInt8)
  deriving DecidableEq, Repr

/-- The target after an assignment. -/
def Update.apply (target : ServerInstance) : Update → ServerInstance
  | .shortServerId value => { target with shortServerId := value }
  | .lifetime value => { target with lifetime := value }
  | .storing value => { target with storing := value }
  | .binding buffer => { target with binding := target.binding.strncpy buffer buffer.length }

/-- The `switch` in the loop of `prv_server_write`: the assignment it makes for an item, or the
status that ends the loop. -/
def itemUpdate (item : Item V) : Except CoapStatus Update :=
  if C.multipleResource item.value then .error .notFound404
  else
    match item.id with
    | serverShortIdId =>
        match prvSetIntValue C item.value with
        | .error status => .error status
        | .ok value =>
            if 0 < value ∧ value ≤ 0xFFFF then .ok (.shortServerId value.toUInt16)
            else .error .notAcceptable406
    | serverLifetimeId =>
        match prvSetIntValue C item.value with
        | .error status => .error status
        | .ok value => .ok (.lifetime value)
    | serverDisableId => .error .methodNotAllowed405
    | serverStoringId =>
        match C.decodeBool item.value with
        | some value => .ok (.storing value)
        | none => .error .badRequest400
    | serverBindingId =>
        match C.asBuffer item.value with
        | some buffer =>
            if buffer.length > 0 ∧ buffer.length ≤ 3 then .ok (.binding buffer)
            else .error .badRequest400
        | none => .error .badRequest400
    | serverUpdateId => .error .methodNotAllowed405
    | _ => .error .notFound404

/-- The loop of `prv_server_write`. -/
def writeItems : List (Item V) → ServerInstance → CoapStatus × ServerInstance
  | [], target => (.changed204, target)
  | item :: rest, target =>
      match itemUpdate C item with
      | .ok update => writeItems rest (update.apply target)
      | .error status => (status, target)

/-- `prv_server_write` for the write types other than `LWM2M_WRITE_REPLACE_INSTANCE`. -/
def writeResources (instances : List ServerInstance) (instanceId : Nat) (items : Items V) :
    CoapStatus × List ServerInstance :=
  match findInstance instanceId instances with
  | none => (.notFound404, instances)
  | some target =>
      let (status, target) := writeItems C items.toList target
      (status, KeyedList.put ServerInstance.instanceId instanceId target instances)

/-- `prv_server_delete` -/
def prvServerDelete (instances : List ServerInstance) (instanceId : Nat) :
    CoapStatus × List ServerInstance :=
  match findInstance instanceId instances with
  | none => (.notFound404, instances)
  | some _ => (.deleted202, KeyedList.remove ServerInstance.instanceId instanceId instances)

/-- `prv_server_create` -/
def prvServerCreate (allocated : Bool) (instances : List ServerInstance) (instanceId : Nat)
    (items : Items V) : CoapStatus × List ServerInstance :=
  if allocated then
    let added := KeyedList.add ServerInstance.instanceId (.blank instanceId) instances
    let (status, written) := writeResources C added instanceId items
    if status ≠ .changed204 then (status, (prvServerDelete written instanceId).2)
    else (.created201, written)
  else (.internalServerError500, instances)

/-- `prv_server_write` -/
def prvServerWrite (allocated : Bool) (instances : List ServerInstance) (instanceId : Nat)
    (items : Items V) (writeType : WriteType) : CoapStatus × List ServerInstance :=
  match findInstance instanceId instances with
  | none => (.notFound404, instances)
  | some _ =>
      match writeType with
      | .replaceInstance =>
          let (status, remaining) := prvServerDelete instances instanceId
          if status = .deleted202 then
            let (status, replaced) := prvServerCreate C allocated remaining instanceId items
            if status = .created201 then (.changed204, replaced) else (status, replaced)
          else (status, remaining)
      | .partialUpdate => writeResources C instances instanceId items
      | .replaceResources => writeResources C instances instanceId items

/-- The `switch` of `prv_server_execute`. -/
def serverExecuteStatus (resourceId : Nat) : CoapStatus :=
  match resourceId with
  | serverDisableId => .changed204
  | serverUpdateId => .changed204
  | _ => .methodNotAllowed405

/-- `prv_server_execute` -/
def prvServerExecute (instances : List ServerInstance) (instanceId resourceId : Nat) :
    CoapStatus :=
  match findInstance instanceId instances with
  | none => .notFound404
  | some _ => serverExecuteStatus resourceId

/-- The instance `get_server_object` builds. -/
def defaultServer : ServerInstance :=
  { ServerInstance.blank 0 with
    shortServerId := 123, lifetime := 15 * 60, storing := false,
    binding := (Buffer.zero 4).setByte 0 'U'.toUInt8 }

/-- The instance list of the object `get_server_object` builds. -/
def getServerObject : List ServerInstance :=
  KeyedList.add ServerInstance.instanceId defaultServer []

theorem getServerObject_eq : getServerObject = [defaultServer] := KeyedList.add_nil defaultServer

theorem findInstance_getServerObject : findInstance 0 getServerObject = some defaultServer := by
  rw [findInstance, getServerObject_eq, KeyedList.find_cons]
  exact if_pos rfl

end Functions

/-! ## Updates -/

namespace Update

/-- The resource it is about. -/
def resourceId : Update → Nat
  | .shortServerId _ => serverShortIdId
  | .lifetime _ => serverLifetimeId
  | .storing _ => serverStoringId
  | .binding _ => serverBindingId

/-- What is read from an update that is about a resource. -/
def given {β : Type} (resource : Nat) (get : Update → Option β) (u : Update) : Option β :=
  if u.resourceId = resource then get u else none

/-- Only updates about the resource give it a value. -/
theorem resourceId_of_given {β : Type} {resource : Nat} {get : Update → Option β} {u : Update}
    (h : u.given resource get ≠ none) : u.resourceId = resource := by
  by_contra hne
  exact h (if_neg hne)

/-- The value it gives to the Short Server ID. -/
def newShortServerId : Update → Option UInt16 :=
  given serverShortIdId fun
    | .shortServerId value => some value
    | _ => none

/-- The value it gives to the lifetime. -/
def newLifetime : Update → Option UInt32 :=
  given serverLifetimeId fun
    | .lifetime value => some value
    | _ => none

/-- The value it gives to the notification storing flag. -/
def newStoring : Update → Option Bool :=
  given serverStoringId fun
    | .storing value => some value
    | _ => none

/-- The value it gives to byte `p` of the binding. -/
def newBindingByte (p : Nat) : Update → Option UInt8 :=
  given serverBindingId fun
    | .binding buffer =>
        if p < buffer.length then
          some (if 0 ∈ buffer.take p then 0 else (buffer[p]?).getD 0)
        else none
    | _ => none

/-- The value a binding gives to a byte. -/
theorem newBindingByte_binding (p : Nat) (buffer : List UInt8) :
    (Update.binding buffer).newBindingByte p =
      if p < buffer.length then
        some (if 0 ∈ buffer.take p then 0 else (buffer[p]?).getD 0)
      else none :=
  rfl

/-- The bytes of a binding without a NUL are copied as they are. -/
theorem newBindingByte_of_nul_free {buffer : List UInt8} (h : 0 ∉ buffer) (p : Nat) :
    (Update.binding buffer).newBindingByte p = buffer[p]? := by
  have hfree : 0 ∉ buffer.take p := fun hmem => h (List.mem_of_mem_take hmem)
  by_cases hp : p < buffer.length
  · simp [newBindingByte_binding, hp, hfree]
  · simp [newBindingByte_binding, hp]

@[simp] theorem apply_instanceId (target : ServerInstance) (u : Update) :
    (u.apply target).instanceId = target.instanceId := by
  cases u <;> rfl

theorem apply_shortServerId (target : ServerInstance) (u : Update) :
    (u.apply target).shortServerId = u.newShortServerId.getD target.shortServerId := by
  cases u <;> rfl

theorem apply_lifetime (target : ServerInstance) (u : Update) :
    (u.apply target).lifetime = u.newLifetime.getD target.lifetime := by
  cases u <;> rfl

theorem apply_storing (target : ServerInstance) (u : Update) :
    (u.apply target).storing = u.newStoring.getD target.storing := by
  cases u <;> rfl

theorem apply_bindingByte {p : Nat} (hp : p < 4) (target : ServerInstance) (u : Update) :
    (u.apply target).binding.byte p = (u.newBindingByte p).getD (target.binding.byte p) := by
  cases u with
  | binding buffer =>
      by_cases h : p < buffer.length
      · simp only [apply, newBindingByte_binding, h, if_true, Option.getD_some]
        exact Buffer.byte_strncpy_of_lt _ _ hp h
      · simp only [apply, newBindingByte_binding, h, if_false, Option.getD_none]
        exact Buffer.byte_strncpy_of_le _ _ (Nat.le_of_not_lt h)
  | _ => rfl

end Update

section View

variable {V : Type} (C : DataCodec V)

/-- The updates of the items before the first refused one. -/
def accepted : List (Item V) → List Update
  | [] => []
  | item :: rest =>
      match itemUpdate C item with
      | .ok u => u :: accepted rest
      | .error _ => []

/-- The status the first refused item is refused with. -/
def refusal : List (Item V) → Option CoapStatus
  | [] => none
  | item :: rest =>
      match itemUpdate C item with
      | .ok _ => refusal rest
      | .error status => some status

/-- Updates one after the other. -/
def applyAll (us : List Update) (target : ServerInstance) : ServerInstance :=
  us.foldl Update.apply target

/-- What the loop does. -/
theorem writeItems_eq (items : List (Item V)) (target : ServerInstance) :
    writeItems C items target =
      ((refusal C items).getD .changed204, applyAll (accepted C items) target) := by
  induction items generalizing target with
  | nil => rfl
  | cons item rest ih =>
      rw [writeItems, refusal, accepted]
      cases itemUpdate C item with
      | ok u => exact ih (u.apply target)
      | error status => rfl

/-! ## Accepted and refused items -/

/-- The items that are accepted, with their updates. -/
inductive Accepts (item : Item V) : Update → Prop
  | shortServerId (n : Int) (hid : item.id = serverShortIdId)
      (hn : C.decodeInt item.value = some n) (hpos : 0 < n) (hle : n ≤ 0xFFFF) :
      Accepts item (.shortServerId (UInt16.ofNat n.toNat))
  | lifetime (n : Int) (hid : item.id = serverLifetimeId)
      (hn : C.decodeInt item.value = some n) (hpos : 0 ≤ n) (hle : n ≤ 0xFFFFFFFF) :
      Accepts item (.lifetime (UInt32.ofNat n.toNat))
  | storing (b : Bool) (hid : item.id = serverStoringId)
      (hb : C.decodeBool item.value = some b) : Accepts item (.storing b)
  | binding (buffer : List UInt8) (hid : item.id = serverBindingId)
      (hbuffer : C.asBuffer item.value = some buffer) (hpos : 0 < buffer.length)
      (hle : buffer.length ≤ 3) : Accepts item (.binding buffer)

/-- A result is what `P` says, or an error. -/
def Outcome {α : Type} (P : α → Prop) : Except CoapStatus α → Prop
  | .ok a => P a
  | .error status => status.isError = true

theorem prvSetIntValue_outcome (value : V) :
    Outcome (fun x => ∃ n : Int, C.decodeInt value = some n ∧ 0 ≤ n ∧ n ≤ 0xFFFFFFFF ∧
      x = UInt32.ofNat n.toNat) (prvSetIntValue C value) := by
  unfold prvSetIntValue
  cases hn : C.decodeInt value with
  | none => rfl
  | some n =>
      simp only
      split
      · rename_i hrange
        exact ⟨n, rfl, hrange.1, hrange.2, rfl⟩
      · rfl

/-- An item for the Short Server ID whose value is in range. -/
theorem Accepts.of_shortServerId {item : Item V} {n : Int} (hid : item.id = serverShortIdId)
    (hn : C.decodeInt item.value = some n) (hle : n ≤ 0xFFFFFFFF)
    (hrange : 0 < UInt32.ofNat n.toNat ∧ UInt32.ofNat n.toNat ≤ 0xFFFF) :
    Accepts C item (.shortServerId (UInt32.ofNat n.toNat).toUInt16) := by
  have hlt : n.toNat < 2 ^ 32 := by omega
  have hbounds := hrange.imp UInt32.lt_iff_toNat_lt.mp UInt32.le_iff_toNat_le.mp
  rw [UInt32.toNat_ofNat_of_lt' hlt] at hbounds
  have hlo : 0 < n.toNat := hbounds.1
  have hhi : n.toNat ≤ 65535 := hbounds.2
  have hnarrow : (UInt32.ofNat n.toNat).toUInt16 = UInt16.ofNat n.toNat := by simp
  rw [hnarrow]
  exact .shortServerId n hid hn (by omega) (by omega)

/-- An item is accepted with its update, or refused with an error. -/
theorem itemUpdate_outcome (item : Item V) : Outcome (Accepts C item) (itemUpdate C item) := by
  have hint := prvSetIntValue_outcome C item.value
  unfold itemUpdate
  split
  · rfl
  · split
    · rename_i hid
      cases hvalue : prvSetIntValue C item.value with
      | error status =>
          rw [hvalue] at hint
          exact hint
      | ok x =>
          rw [hvalue] at hint
          obtain ⟨n, hn, _, hle, rfl⟩ := hint
          simp only
          split
          · rename_i hrange
            exact .of_shortServerId C hid hn hle hrange
          · rfl
    · rename_i hid
      cases hvalue : prvSetIntValue C item.value with
      | error status =>
          rw [hvalue] at hint
          exact hint
      | ok x =>
          rw [hvalue] at hint
          obtain ⟨n, hn, hpos, hle, rfl⟩ := hint
          exact .lifetime n hid hn hpos hle
    · rfl
    · rename_i hid
      cases hb : C.decodeBool item.value with
      | none => rfl
      | some b => exact .storing b hid hb
    · rename_i hid
      cases hbuffer : C.asBuffer item.value with
      | none => rfl
      | some buffer =>
          simp only
          split
          · rename_i hlength
            exact .binding buffer hid hbuffer hlength.1 hlength.2
          · rfl
    · rfl
    · rfl

theorem itemUpdate_ok {item : Item V} {u : Update} (h : itemUpdate C item = .ok u) :
    Accepts C item u := by
  have houtcome := itemUpdate_outcome C item
  rw [h] at houtcome
  exact houtcome

theorem itemUpdate_error {item : Item V} {status : CoapStatus}
    (h : itemUpdate C item = .error status) : status.isError = true := by
  have houtcome := itemUpdate_outcome C item
  rw [h] at houtcome
  exact houtcome

/-- An item is accepted for the resource it names. -/
theorem Accepts.id_eq {item : Item V} {u : Update} (h : Accepts C item u) :
    item.id = u.resourceId := by
  cases h <;> assumption

theorem refusal_isError {items : List (Item V)} {status : CoapStatus}
    (h : refusal C items = some status) : status.isError = true := by
  induction items with
  | nil => cases h
  | cons item rest ih =>
      unfold refusal at h
      cases hitem : itemUpdate C item with
      | ok u =>
          rw [hitem] at h
          exact ih h
      | error other =>
          rw [hitem] at h
          cases h
          exact itemUpdate_error C hitem

/-- The loop ends with `COAP_204_CHANGED` precisely if no item is refused. -/
theorem refusal_getD_eq_changed {items : List (Item V)} :
    (refusal C items).getD .changed204 = .changed204 ↔ refusal C items = none := by
  cases h : refusal C items with
  | none => simp
  | some status =>
      have herror := refusal_isError C h
      refine iff_of_false ?_ (Option.some_ne_none status)
      rintro rfl
      cases herror

/-- Every update of a write is that of one of its items. -/
theorem exists_item_of_accepted {items : List (Item V)} {u : Update}
    (h : u ∈ accepted C items) : ∃ item ∈ items, itemUpdate C item = .ok u := by
  induction items with
  | nil => cases h
  | cons item rest ih =>
      unfold accepted at h
      cases hitem : itemUpdate C item with
      | error status =>
          rw [hitem] at h
          cases h
      | ok v =>
          rw [hitem] at h
          rcases List.mem_cons.mp h with rfl | hrest
          · exact ⟨item, List.mem_cons_self, hitem⟩
          · obtain ⟨other, hother, hu⟩ := ih hrest
            exact ⟨other, List.mem_cons_of_mem item hother, hu⟩

/-- When no item is refused, every item has its update among those of the write. -/
theorem exists_accepted_of_item {items : List (Item V)} (h : refusal C items = none)
    {item : Item V} (hitem : item ∈ items) :
    ∃ u ∈ accepted C items, itemUpdate C item = .ok u := by
  induction items with
  | nil => cases hitem
  | cons first rest ih =>
      unfold refusal at h
      unfold accepted
      cases hfirst : itemUpdate C first with
      | error status =>
          rw [hfirst] at h
          cases h
      | ok v =>
          rw [hfirst] at h
          rcases List.mem_cons.mp hitem with rfl | hrest
          · exact ⟨v, List.mem_cons_self, hfirst⟩
          · obtain ⟨u, hu, hother⟩ := ih h hrest
            exact ⟨u, List.mem_cons_of_mem v hu, hother⟩

end View

/-! ## An instance after a list of updates -/

@[simp] theorem applyAll_instanceId (us : List Update) (target : ServerInstance) :
    (applyAll us target).instanceId = target.instanceId := by
  induction us generalizing target with
  | nil => rfl
  | cons u us ih => exact (ih (u.apply target)).trans (Update.apply_instanceId target u)

theorem applyAll_shortServerId (us : List Update) (target : ServerInstance) :
    (applyAll us target).shortServerId =
      (Trace.latest Update.newShortServerId us).getD target.shortServerId :=
  Trace.foldl_component ServerInstance.shortServerId Update.apply_shortServerId us target

theorem applyAll_lifetime (us : List Update) (target : ServerInstance) :
    (applyAll us target).lifetime =
      (Trace.latest Update.newLifetime us).getD target.lifetime :=
  Trace.foldl_component ServerInstance.lifetime Update.apply_lifetime us target

theorem applyAll_storing (us : List Update) (target : ServerInstance) :
    (applyAll us target).storing = (Trace.latest Update.newStoring us).getD target.storing :=
  Trace.foldl_component ServerInstance.storing Update.apply_storing us target

theorem applyAll_bindingByte {p : Nat} (hp : p < 4) (us : List Update)
    (target : ServerInstance) :
    (applyAll us target).binding.byte p =
      (Trace.latest (Update.newBindingByte p) us).getD (target.binding.byte p) :=
  Trace.foldl_component (fun t : ServerInstance => t.binding.byte p)
    (Update.apply_bindingByte hp) us target

/-- An instance is given by its fields, its binding by the four bytes. -/
theorem ServerInstance.ext_bytes {s t : ServerInstance} (hid : s.instanceId = t.instanceId)
    (hshort : s.shortServerId = t.shortServerId) (hlifetime : s.lifetime = t.lifetime)
    (hstoring : s.storing = t.storing)
    (hbinding : ∀ p < 4, s.binding.byte p = t.binding.byte p) : s = t := by
  have hbytes := Buffer.ext_byte hbinding
  cases s
  cases t
  simp_all

/-- The updates leave an instance as it is: the last value each of them gives to a field
is the one it has. -/
structure Repeats (us : List Update) (target : ServerInstance) : Prop where
  shortServerId : ∀ v, Trace.latest Update.newShortServerId us = some v → v = target.shortServerId
  lifetime : ∀ v, Trace.latest Update.newLifetime us = some v → v = target.lifetime
  storing : ∀ v, Trace.latest Update.newStoring us = some v → v = target.storing
  binding : ∀ p < 4, ∀ c, Trace.latest (Update.newBindingByte p) us = some c →
    c = target.binding.byte p

theorem getD_eq_iff {β : Type} (o : Option β) (x : β) :
    o.getD x = x ↔ ∀ v, o = some v → v = x := by
  cases o <;> simp

theorem applyAll_eq_self_iff (us : List Update) (target : ServerInstance) :
    applyAll us target = target ↔ Repeats us target := by
  constructor
  · intro h
    refine ⟨?_, ?_, ?_, fun p hp => ?_⟩ <;> rw [← getD_eq_iff]
    · rw [← applyAll_shortServerId, h]
    · rw [← applyAll_lifetime, h]
    · rw [← applyAll_storing, h]
    · rw [← applyAll_bindingByte hp, h]
  · intro h
    apply ServerInstance.ext_bytes (applyAll_instanceId us target)
    · rw [applyAll_shortServerId, getD_eq_iff]
      exact h.shortServerId
    · rw [applyAll_lifetime, getD_eq_iff]
      exact h.lifetime
    · rw [applyAll_storing, getD_eq_iff]
      exact h.storing
    · intro p hp
      rw [applyAll_bindingByte hp, getD_eq_iff]
      exact h.binding p hp

/-! ## The object functions through their updates -/

section Specs

variable [KeyedList ServerInstance.instanceId]
variable {V : Type} (C : DataCodec V) {instances : List ServerInstance} {instanceId : Nat}
  {target : ServerInstance} (items : Items V)

theorem writeResources_of_some (h : findInstance instanceId instances = some target) :
    writeResources C instances instanceId items =
      ((refusal C items.toList).getD .changed204,
        KeyedList.put ServerInstance.instanceId instanceId
          (applyAll (accepted C items.toList) target) instances) := by
  simp only [writeResources, h, writeItems_eq]

theorem prvServerDelete_of_some (h : findInstance instanceId instances = some target) :
    prvServerDelete instances instanceId =
      (.deleted202, KeyedList.remove ServerInstance.instanceId instanceId instances) := by
  simp only [prvServerDelete, h]

theorem prvServerWrite_of_none (allocated : Bool) (writeType : WriteType)
    (h : findInstance instanceId instances = none) :
    prvServerWrite C allocated instances instanceId items writeType =
      (.notFound404, instances) := by
  simp only [prvServerWrite, h]

theorem prvServerWrite_of_some (allocated : Bool) {writeType : WriteType}
    (htype : writeType ≠ .replaceInstance)
    (h : findInstance instanceId instances = some target) :
    prvServerWrite C allocated instances instanceId items writeType =
      ((refusal C items.toList).getD .changed204,
        KeyedList.put ServerInstance.instanceId instanceId
          (applyAll (accepted C items.toList) target) instances) := by
  rw [← writeResources_of_some C items h]
  cases writeType with
  | replaceInstance => exact absurd rfl htype
  | partialUpdate => simp only [prvServerWrite, h]
  | replaceResources => simp only [prvServerWrite, h]

theorem prvServerWrite_replace (allocated : Bool)
    (h : findInstance instanceId instances = some target) :
    prvServerWrite C allocated instances instanceId items .replaceInstance =
      let result := prvServerCreate C allocated
        (KeyedList.remove ServerInstance.instanceId instanceId instances) instanceId items
      (if result.1 = .created201 then .changed204 else result.1, result.2) := by
  simp only [prvServerWrite, h, prvServerDelete_of_some h, if_true]
  split <;> rfl

/-- A write to an instance that was just added under a new id. -/
theorem writeResources_added (h : findInstance instanceId instances = none) :
    writeResources C
        (KeyedList.add ServerInstance.instanceId (.blank instanceId) instances) instanceId items =
      ((refusal C items.toList).getD .changed204,
        KeyedList.add ServerInstance.instanceId
          (applyAll (accepted C items.toList) (.blank instanceId)) instances) := by
  have hfound : findInstance instanceId
      (KeyedList.add ServerInstance.instanceId (.blank instanceId) instances) =
        some (.blank instanceId) := KeyedList.find_add rfl h
  have hput := KeyedList.put_add (l := instances) rfl
    (applyAll_instanceId (accepted C items.toList) (.blank instanceId)) h
  rw [writeResources_of_some C items hfound]
  exact Prod.ext rfl hput

/-- Deleting an instance that was added under a new id gives the list back. -/
theorem prvServerDelete_added (hkey : target.instanceId = instanceId)
    (h : findInstance instanceId instances = none) :
    (prvServerDelete (KeyedList.add ServerInstance.instanceId target instances) instanceId).2 =
      instances := by
  have hfound : findInstance instanceId
      (KeyedList.add ServerInstance.instanceId target instances) = some target :=
    KeyedList.find_add hkey h
  rw [prvServerDelete_of_some hfound]
  exact KeyedList.remove_add hkey h

/-- A creation under a new id adds the blank instance with the updates, or leaves the list
as it was. -/
theorem prvServerCreate_of_none (allocated : Bool)
    (h : findInstance instanceId instances = none) :
    prvServerCreate C allocated instances instanceId items =
      if allocated = true ∧ refusal C items.toList = none then
        (.created201, KeyedList.add ServerInstance.instanceId
          (applyAll (accepted C items.toList) (.blank instanceId)) instances)
      else
        (if allocated then (refusal C items.toList).getD .changed204
          else .internalServerError500, instances) := by
  cases allocated with
  | false => rfl
  | true =>
      simp only [prvServerCreate, if_true, true_and, writeResources_added C items h]
      cases hrefusal : refusal C items.toList with
      | none => rfl
      | some status =>
          have hstatus : status ≠ .changed204 := by
            rintro rfl
            cases refusal_isError C hrefusal
          have hkey : (applyAll (accepted C items.toList) (.blank instanceId)).instanceId =
              instanceId := applyAll_instanceId _ _
          simp [hstatus, prvServerDelete_added hkey h]

end Specs

end Uiso.Lwm2m
