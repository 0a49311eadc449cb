/-
  Lwm2m/ServerWrite.lean --- what a write to the Server object leaves behind: after a
  refused one the state before it, after an accepted one the values written.

  Both are read off the updates a write applies.  A refused write has applied those of
  the items before the refused one; a binding is copied without its terminating NUL, so
  the rest of a longer binding stays behind it.
-/
import Uiso.Lwm2m.ServerInvariant
import Mathlib.Data.List.Nodup

set_option autoImplicit false

namespace Uiso.Lwm2m

open Uiso.Foundation

/-! ## Refused writes -/

section Atomicity

variable [KeyedList ServerInstance.instanceId]
variable {V : Type} (C : DataCodec V) {instances : List ServerInstance} {instanceId : Nat}
  {target : ServerInstance} (items : Items V)

/-- A refused write leaves the instance list as it was. -/
def WriteAtomic (allocated : Bool) (instances : List ServerInstance) (instanceId : Nat)
    (items : Items V) (writeType : WriteType) : Prop :=
  (prvServerWrite C allocated instances instanceId items writeType).1 ≠ .changed204 →
    (prvServerWrite C allocated instances instanceId items writeType).2 = instances

instance (allocated : Bool) (writeType : WriteType) :
    Decidable (WriteAtomic C allocated instances instanceId items writeType) :=
  inferInstanceAs (Decidable (_ → _))

/-- An update in place is undone by nothing: it must have changed nothing. -/
theorem writeAtomic_update_iff (allocated : Bool) {writeType : WriteType}
    (htype : writeType ≠ .replaceInstance)
    (hfound : findInstance instanceId instances = some target) :
    WriteAtomic C allocated instances instanceId items writeType ↔
      refusal C items.toList = none ∨ Repeats (accepted C items.toList) target := by
  unfold WriteAtomic
  rw [prvServerWrite_of_some C items allocated htype hfound]
  simp only [ne_eq, refusal_getD_eq_changed, KeyedList.put_eq_self_iff hfound,
    applyAll_eq_self_iff]
  exact or_iff_not_imp_left.symm

/-- Some instance is found under the id of a creation. -/
theorem exists_added (instances : List ServerInstance) (instanceId : Nat) :
    ∃ written, findInstance instanceId
      (KeyedList.add ServerInstance.instanceId (.blank instanceId) instances) = some written := by
  have hid : (ServerInstance.blank instanceId).instanceId = instanceId := rfl
  exact KeyedList.exists_find_add hid instances

/-- A creation that fails returns an error and has not added an instance, whatever the list
was. -/
theorem prvServerCreate_failed (instances : List ServerInstance) (instanceId : Nat)
    {allocated : Bool} (h : ¬(allocated = true ∧ refusal C items.toList = none)) :
    (prvServerCreate C allocated instances instanceId items).1.isError = true ∧
      (prvServerCreate C allocated instances instanceId items).2.length = instances.length := by
  cases allocated with
  | false => exact ⟨rfl, rfl⟩
  | true =>
      obtain ⟨status, hstatus⟩ := Option.ne_none_iff_exists'.mp fun hr => h ⟨rfl, hr⟩
      have herror := refusal_isError C hstatus
      have hne : status ≠ .changed204 := by
        rintro rfl
        cases herror
      -- The new instance need not be the one that is written and deleted, but one is.
      obtain ⟨written, hwritten⟩ := exists_added instances instanceId
      have hid := KeyedList.key_of_find hwritten
      have hput : findInstance instanceId _ = some _ := KeyedList.find_put_same
        ((applyAll_instanceId (accepted C items.toList) written).trans hid) hwritten
      have hlength := KeyedList.length_remove hput
      rw [KeyedList.length_put, KeyedList.length_add] at hlength
      simp only [prvServerCreate, if_true, writeResources_of_some C items hwritten, hstatus,
        Option.getD_some, ne_eq, hne, not_false_eq_true, prvServerDelete_of_some hput]
      exact ⟨herror, by omega⟩

/-- A creation that does not fail. -/
theorem prvServerCreate_created (instances : List ServerInstance) (instanceId : Nat)
    {allocated : Bool} (h : allocated = true ∧ refusal C items.toList = none) :
    (prvServerCreate C allocated instances instanceId items).1 = .created201 := by
  obtain ⟨rfl, hrefusal⟩ := h
  obtain ⟨written, hwritten⟩ := exists_added instances instanceId
  simp only [prvServerCreate, if_true, writeResources_of_some C items hwritten, hrefusal,
    Option.getD_none, ne_eq, not_true_eq_false, if_false]

/-- A replacement that fails has lost the instance. -/
theorem writeAtomic_replace_iff (allocated : Bool)
    (hfound : findInstance instanceId instances = some target) :
    WriteAtomic C allocated instances instanceId items .replaceInstance ↔
      allocated = true ∧ refusal C items.toList = none := by
  unfold WriteAtomic
  rw [prvServerWrite_replace C items allocated hfound]
  have hlost := KeyedList.length_remove hfound
  constructor
  · intro hatomic
    refine Decidable.of_not_not fun hfailed => ?_
    obtain ⟨herror, hlength⟩ := prvServerCreate_failed C items
      (KeyedList.remove ServerInstance.instanceId instanceId instances) instanceId hfailed
    have hsame : (prvServerCreate C allocated
        (KeyedList.remove ServerInstance.instanceId instanceId instances) instanceId items).2 =
          instances := by
      apply hatomic
      dsimp only
      split
      · rename_i hcreated
        rw [hcreated] at herror
        cases herror
      · intro hchanged
        rw [hchanged] at herror
        cases herror
    rw [hsame] at hlength
    omega
  · intro hdone hne
    have hcreated := prvServerCreate_created C items
      (KeyedList.remove ServerInstance.instanceId instanceId instances) instanceId hdone
    exact absurd (if_pos hcreated) hne

/-- A write that is refused leaves the object as it was precisely in these cases: the
instance does not exist; a replacement is not refused at all; or, for the other write types,
no item is refused or the items before the refused one repeat what the instance holds. -/
theorem write_atomic_iff (allocated : Bool) (instances : List ServerInstance)
    (instanceId : Nat) (items : Items V) (writeType : WriteType) :
    WriteAtomic C allocated instances instanceId items writeType ↔
      ∀ target, findInstance instanceId instances = some target →
        if writeType = .replaceInstance then
          allocated = true ∧ refusal C items.toList = none
        else refusal C items.toList = none ∨ Repeats (accepted C items.toList) target := by
  cases hfound : findInstance instanceId instances with
  | none =>
      refine iff_of_true ?_ (fun target h => by cases h)
      intro _
      rw [prvServerWrite_of_none C items allocated writeType hfound]
  | some target =>
      simp only [Option.some.injEq, forall_eq']
      split
      · rename_i htype
        rw [htype, writeAtomic_replace_iff C items allocated hfound]
      · rename_i htype
        exact writeAtomic_update_iff C items allocated htype hfound

end Atomicity

section Ordered

attribute [local instance] KeyedList.ordered

/-- Replacing instance 0 by a single unwritable item is answered with 4.05 and deletes the
instance. -/
theorem refused_replacement_deletes :
    ¬ ∀ (allocated : Bool) (instances : List ServerInstance) (instanceId : Nat)
        (items : Items Value) (writeType : WriteType),
      WriteAtomic valueCodec allocated instances instanceId items writeType := by
  intro h
  have hatomic := h true getServerObject 0 (.single serverDisableId (.int 0)) .replaceInstance
  exact absurd hatomic (by decide)

end Ordered

/-! ## Creations -/

section Creation

variable {V : Type} (C : DataCodec V)

/-- When no item is refused, the updates are those of all items, in order. -/
theorem accepted_of_not_refused {items : List (Item V)} (h : refusal C items = none) :
    List.Forall₂ (Accepts C) items (accepted C items) := by
  induction items with
  | nil => exact .nil
  | cons item rest ih =>
      unfold refusal at h
      unfold accepted
      cases hitem : itemUpdate C item with
      | ok u =>
          rw [hitem] at h
          exact .cons (itemUpdate_ok C hitem) (ih h)
      | error status =>
          rw [hitem] at h
          cases h

variable [KeyedList ServerInstance.instanceId]

/-- The list has one more instance: the blank one with the updates of all items. -/
structure CreatedFrom (instances : List ServerInstance) (instanceId : Nat)
    (items : List (Item V)) (after : List ServerInstance) (created : ServerInstance) : Prop where
  one : after.Perm (created :: instances)
  others : KeyedList.remove ServerInstance.instanceId instanceId after = instances
  found : findInstance instanceId after = some created
  id : created.instanceId = instanceId
  written : ∃ us, List.Forall₂ (Accepts C) items us ∧ created = applyAll us (.blank instanceId)

/-- A creation under a new id adds the instance with all items written to it, or returns an
error and leaves the list as it was. -/
theorem create_all_or_nothing (allocated : Bool) (instances : List ServerInstance)
    (instanceId : Nat) (items : Items V) (hnew : findInstance instanceId instances = none) :
    (∃ after created,
        prvServerCreate C allocated instances instanceId items = (.created201, after) ∧
          CreatedFrom C instances instanceId items.toList after created) ∨
      ∃ status, status.isError = true ∧
        prvServerCreate C allocated instances instanceId items = (status, instances) := by
  rw [prvServerCreate_of_none C items allocated hnew]
  split
  · rename_i hcreated
    have hkey : (applyAll (accepted C items.toList) (.blank instanceId)).instanceId =
        instanceId := applyAll_instanceId _ _
    exact .inl ⟨_, _, rfl, KeyedList.add_perm _ _ _, KeyedList.remove_add hkey hnew,
      KeyedList.find_add hkey hnew, hkey, _, accepted_of_not_refused C hcreated.2, rfl⟩
  · rename_i hfailed
    refine .inr ⟨_, ?_, rfl⟩
    cases allocated with
    | false => rfl
    | true =>
        obtain ⟨status, hstatus⟩ := Option.ne_none_iff_exists'.mp fun h => hfailed ⟨rfl, h⟩
        rw [hstatus]
        exact refusal_isError C hstatus

end Creation

section Ordered

attribute [local instance] KeyedList.ordered

/-- A creation whose second item is refused. -/
theorem create_all_or_nothing_refused :
    findInstance 1 getServerObject = none ∧
      prvServerCreate valueCodec true getServerObject 1
          ⟨⟨serverShortIdId, .int 7⟩, [⟨serverDisableId, .int 0⟩]⟩ =
        (.methodNotAllowed405, getServerObject) := by
  have hnew : findInstance 1 getServerObject = none := by decide
  refine ⟨hnew, ?_⟩
  rcases create_all_or_nothing valueCodec true getServerObject 1
      ⟨⟨serverShortIdId, .int 7⟩, [⟨serverDisableId, .int 0⟩]⟩ hnew with
    ⟨after, created, hcreate, -⟩ | ⟨status, -, hcreate⟩
  · have hstatus : CoapStatus.methodNotAllowed405 = .created201 := congrArg Prod.fst hcreate
    cases hstatus
  · have hstatus : .methodNotAllowed405 = status := congrArg Prod.fst hcreate
    rw [hcreate, hstatus]

end Ordered

/-! ## Values written and read -/

section ReadAfterWrite

variable {V : Type} (C : DataCodec V)

/-- A value read from a resource is the one written to it. -/
def SameValue (resourceId : Nat) (written read : V) : Prop :=
  match resourceId with
  | serverShortIdId => C.decodeInt read = C.decodeInt written
  | serverLifetimeId => C.decodeInt read = C.decodeInt written
  | serverStoringId => C.decodeBool read = C.decodeBool written
  | serverBindingId => C.asBuffer read = C.asBuffer written
  | _ => False

/-- The value a resource of an instance reads as. -/
def resourceValue (target : ServerInstance) (resourceId : Nat) : Except CoapStatus V :=
  prvGetValue C ⟨resourceId, C.undefined⟩ target

/-- A resource without a value is answered with an error. -/
theorem resourceValue_error {target : ServerInstance} {resourceId : Nat} {status : CoapStatus}
    (h : resourceValue C target resourceId = .error status) : status.isError = true := by
  unfold resourceValue prvGetValue at h
  dsimp only at h
  split at h <;> cases h <;> rfl

variable {items : List (Item V)}

/-- With distinct resource ids a write has one update for each resource. -/
theorem update_unique (hids : (items.map Item.id).Nodup) {item : Item V} (hitem : item ∈ items)
    {u v : Update} (hu : itemUpdate C item = .ok u) (hv : v ∈ accepted C items)
    (hsame : v.resourceId = u.resourceId) : v = u := by
  obtain ⟨other, hother, hv⟩ := exists_item_of_accepted C hv
  have hid : other.id = item.id := by
    rw [(itemUpdate_ok C hv).id_eq, (itemUpdate_ok C hu).id_eq, hsame]
  obtain rfl := List.inj_on_of_nodup_map hids hother hitem hid
  exact Except.ok.inj (hv.symm.trans hu)

/-- What a write gives to a field of a written resource is what its item gives. -/
theorem latest_eq_item {β : Type} {f : Update → Option β} (hids : (items.map Item.id).Nodup)
    (hrefusal : refusal C items = none) {item : Item V} (hitem : item ∈ items) {u : Update}
    (hu : itemUpdate C item = .ok u) (hf : ∀ v, f v ≠ none → v.resourceId = u.resourceId) :
    Trace.latest f (accepted C items) = f u := by
  have hunique : ∀ v ∈ accepted C items, f v ≠ none → v = u := fun v hv hne =>
    update_unique C hids hitem hu hv (hf v hne)
  cases hb : f u with
  | none =>
      rw [Trace.latest_eq_none_iff]
      intro v hv
      refine Decidable.of_not_not fun hne => ?_
      rw [hunique v hv hne] at hne
      exact hne hb
  | some b =>
      obtain ⟨u', hmem, hu'⟩ := exists_accepted_of_item C hrefusal hitem
      obtain rfl : u' = u := Except.ok.inj (hu'.symm.trans hu)
      refine Trace.latest_eq_of_forall hmem hb ?_
      intro v hv c hc
      have hvu := hunique v hv (by rw [hc]; exact Option.some_ne_none c)
      rw [hvu, hb] at hc
      exact (Option.some.inj hc).symm

/-- What it gives to a field of another resource is nothing. -/
theorem latest_eq_none_of_not_mem {β : Type} {f : Update → Option β} {resourceId : Nat}
    (h : resourceId ∉ items.map Item.id) (hf : ∀ v, f v ≠ none → v.resourceId = resourceId) :
    Trace.latest f (accepted C items) = none := by
  rw [Trace.latest_eq_none_iff]
  intro v hv
  refine Decidable.of_not_not fun hne => h ?_
  obtain ⟨item, hitem, hu⟩ := exists_item_of_accepted C hv
  exact List.mem_map.mpr ⟨item, hitem, (itemUpdate_ok C hu).id_eq.trans (hf v hne)⟩

/-- A resource that is not written keeps its value. -/
theorem resourceValue_untouched {resourceId : Nat} (h : resourceId ∉ items.map Item.id)
    (target : ServerInstance) :
    resourceValue C (applyAll (accepted C items) target) resourceId =
      resourceValue C target resourceId := by
  unfold resourceValue prvGetValue
  dsimp only
  split
  · rw [applyAll_shortServerId, latest_eq_none_of_not_mem C (f := Update.newShortServerId) h
      fun _ => Update.resourceId_of_given, Option.getD_none]
  · rw [applyAll_lifetime, latest_eq_none_of_not_mem C (f := Update.newLifetime) h
      fun _ => Update.resourceId_of_given, Option.getD_none]
  · rfl
  · rw [applyAll_storing, latest_eq_none_of_not_mem C (f := Update.newStoring) h
      fun _ => Update.resourceId_of_given, Option.getD_none]
  · have hbinding : (applyAll (accepted C items) target).binding = target.binding := by
      apply Buffer.ext_byte
      intro p hp
      rw [applyAll_bindingByte hp, latest_eq_none_of_not_mem C (f := Update.newBindingByte p) h
        fun _ => Update.resourceId_of_given, Option.getD_none]
    rw [hbinding]
  · rfl
  · rfl

/-- A binding copied over another one is read back precisely if the byte behind it was
NUL. -/
theorem cString_after_copy_iff {before after : Buffer 4} {buffer : List UInt8}
    (hfree : 0 ∉ buffer) (hlength : buffer.length ≤ 3)
    (hbytes : ∀ p < 4, after.byte p = (buffer[p]?).getD (before.byte p)) :
    after.cString = some buffer ↔ before.byte buffer.length = 0 := by
  have hend : after.byte buffer.length = before.byte buffer.length := by
    rw [hbytes _ (by omega), List.getElem?_eq_none (Nat.le_refl _), Option.getD_none]
  rw [Buffer.cString_eq_some, hend]
  constructor
  · intro h
    exact h.2.2.2
  · intro hnul
    refine ⟨by omega, hfree, fun p hp => ?_, hnul⟩
    rw [hbytes p (by omega), List.getElem?_eq_getElem hp, Option.getD_some]

/-- The binding of an instance after a write with a binding item. -/
theorem exists_binding_value_iff (hids : (items.map Item.id).Nodup)
    (hrefusal : refusal C items = none) {item : Item V} (hitem : item ∈ items)
    {buffer : List UInt8} (hu : itemUpdate C item = .ok (.binding buffer)) (hfree : 0 ∉ buffer)
    (hlength : buffer.length ≤ 3) {target : ServerInstance} (hterm : Terminated target) :
    (∃ value, resourceValue C (applyAll (accepted C items) target) serverBindingId = .ok value ∧
      C.asBuffer value = some buffer) ↔ target.binding.byte buffer.length = 0 := by
  have hbytes : ∀ p < 4, (applyAll (accepted C items) target).binding.byte p =
      (buffer[p]?).getD (target.binding.byte p) := by
    intro p hp
    have hvalue := latest_eq_item C (f := Update.newBindingByte p) hids hrefusal hitem hu fun _ =>
      Update.resourceId_of_given
    rw [applyAll_bindingByte hp, hvalue, Update.newBindingByte_of_nul_free hfree]
  have hcopy := cString_after_copy_iff hfree hlength hbytes
  obtain ⟨s, hs, _⟩ := (hterm.applyAll C items).cString
  have hread : resourceValue C (applyAll (accepted C items) target) serverBindingId =
      .ok (C.encodeString s) := by
    simp only [resourceValue, prvGetValue, hs, Option.getD_some]
  have hsfree : 0 ∉ s := (Buffer.cString_eq_some.mp hs).2.1
  rw [hs] at hcopy
  rw [← hcopy, hread]
  simp only [Except.ok.injEq, exists_eq_left', C.asBuffer_encodeString s hsfree]

/-- A written resource reads back its value, a binding precisely if the byte behind it was
NUL. -/
theorem resourceValue_written_iff (hids : (items.map Item.id).Nodup)
    (hrefusal : refusal C items = none) {item : Item V} (hitem : item ∈ items)
    (hfree : item.id = serverBindingId → ∀ buffer, C.asBuffer item.value = some buffer →
      0 ∉ buffer)
    {target : ServerInstance} (hterm : Terminated target) :
    (∃ value, resourceValue C (applyAll (accepted C items) target) item.id = .ok value ∧
      SameValue C item.id item.value value) ↔
    (item.id = serverBindingId → ∀ buffer, C.asBuffer item.value = some buffer →
      target.binding.byte buffer.length = 0) := by
  obtain ⟨u, hmem, hu⟩ := exists_accepted_of_item C hrefusal hitem
  clear hmem
  cases itemUpdate_ok C hu with
  | shortServerId n hid hn hpos hle =>
      have hlt : n.toNat < 2 ^ 16 := by omega
      have hvalue : Trace.latest Update.newShortServerId (accepted C items) =
          some (UInt16.ofNat n.toNat) :=
        latest_eq_item C hids hrefusal hitem hu fun _ => Update.resourceId_of_given
      refine iff_of_true ?_ (fun h => absurd (hid.symm.trans h) (by decide))
      refine ⟨C.encodeInt n, ?_, ?_⟩
      · simp only [resourceValue, prvGetValue, hid, applyAll_shortServerId, hvalue,
          Option.getD_some, UInt16.toNat_ofNat_of_lt' hlt,
          Int.toNat_of_nonneg (Int.le_of_lt hpos)]
      · simp only [hid, SameValue, hn]
        exact C.decodeInt_encodeInt n (by omega) (by omega)
  | lifetime n hid hn hpos hle =>
      have hlt : n.toNat < 2 ^ 32 := by omega
      have hvalue : Trace.latest Update.newLifetime (accepted C items) =
          some (UInt32.ofNat n.toNat) :=
        latest_eq_item C hids hrefusal hitem hu fun _ => Update.resourceId_of_given
      refine iff_of_true ?_ (fun h => absurd (hid.symm.trans h) (by decide))
      refine ⟨C.encodeInt n, ?_, ?_⟩
      · simp only [resourceValue, prvGetValue, hid, applyAll_lifetime, hvalue,
          Option.getD_some, UInt32.toNat_ofNat_of_lt' hlt,
          Int.toNat_of_nonneg hpos]
      · simp only [hid, SameValue, hn]
        exact C.decodeInt_encodeInt n (by omega) (by omega)
  | storing b hid hb =>
      have hvalue : Trace.latest Update.newStoring (accepted C items) = some b :=
        latest_eq_item C hids hrefusal hitem hu fun _ => Update.resourceId_of_given
      refine iff_of_true ?_ (fun h => absurd (hid.symm.trans h) (by decide))
      refine ⟨C.encodeBool b, ?_, ?_⟩
      · simp only [resourceValue, prvGetValue, hid, applyAll_storing, hvalue,
          Option.getD_some]
      · simp only [hid, SameValue, hb]
        exact C.decodeBool_encodeBool b
  | binding buffer hid hbuffer hpos hle =>
      have hvalue := exists_binding_value_iff C hids hrefusal hitem hu
        (hfree hid buffer hbuffer) hle hterm
      simp only [hid, SameValue, hbuffer, Option.some.injEq, forall_eq', forall_const]
      exact hvalue

/-- The items of a write name distinct resources, and its bindings are nonempty strings. -/
structure ProperItems (items : List (Item V)) : Prop where
  ids : (items.map Item.id).Nodup
  binding : ∀ item ∈ items, item.id = serverBindingId →
    ∀ buffer, C.asBuffer item.value = some buffer → buffer ≠ [] ∧ 0 ∉ buffer

variable [KeyedList ServerInstance.instanceId]

/-- A read of one resource of an instance. -/
def readResource (instances : List ServerInstance) (instanceId resourceId : Nat) :
    CoapStatus × List (Item V) :=
  prvServerRead C true instances instanceId [⟨resourceId, C.undefined⟩]

/-- The object reads as a write of `items` to an instance should leave it. -/
structure ReadsBack (before after : List ServerInstance) (instanceId : Nat)
    (items : List (Item V)) : Prop where
  written : ∀ item ∈ items, ∃ value,
    readResource C after instanceId item.id = (.content205, [⟨item.id, value⟩]) ∧
      SameValue C item.id item.value value
  untouched : ∀ resourceId, resourceId ∉ items.map Item.id →
    readResource C after instanceId resourceId = readResource C before instanceId resourceId
  elsewhere : ∀ other resourceId, other ≠ instanceId →
    readResource C after other resourceId = readResource C before other resourceId

theorem readResource_of_some {instances : List ServerInstance} {instanceId : Nat}
    {target : ServerInstance} (h : findInstance instanceId instances = some target)
    (resourceId : Nat) :
    readResource C instances instanceId resourceId =
      match resourceValue C target resourceId with
      | .ok value => (.content205, [⟨resourceId, value⟩])
      | .error status => (status, [⟨resourceId, C.undefined⟩]) := by
  simp only [readResource, prvServerRead, h, readItems, serverReadItem, C.undefined_single,
    resourceValue, Bool.false_eq_true, if_false]
  cases prvGetValue C ⟨resourceId, C.undefined⟩ target <;> rfl

/-- A read is answered with `COAP_205_CONTENT` and a value precisely if the resource has
it. -/
theorem readResource_eq_content {instances : List ServerInstance} {instanceId : Nat}
    {target : ServerInstance} (h : findInstance instanceId instances = some target)
    (resourceId : Nat) (value : V) :
    readResource C instances instanceId resourceId = (.content205, [⟨resourceId, value⟩]) ↔
      resourceValue C target resourceId = .ok value := by
  rw [readResource_of_some C h]
  cases hvalue : resourceValue C target resourceId with
  | ok read => simp
  | error status =>
      have herror := resourceValue_error C hvalue
      refine iff_of_false ?_ (fun hok => by cases hok)
      intro hcontent
      rw [(Prod.mk.inj hcontent).1] at herror
      cases herror

/-- Reads look at an instance only. -/
theorem readResource_congr {before after : List ServerInstance} {instanceId : Nat}
    (h : findInstance instanceId after = findInstance instanceId before) (resourceId : Nat) :
    readResource C after instanceId resourceId = readResource C before instanceId resourceId := by
  simp only [readResource, prvServerRead, h]

/-- In every reachable state of the object, an update of an instance that is answered with
`COAP_204_CHANGED` is read back, and nothing else reads differently, precisely if no binding
is shortened: when no item is refused, the byte of the stored binding behind the last one
written is NUL. -/
theorem read_after_write_iff (ops : List (ServerOp V)) {instances : List ServerInstance}
    (hrun : (serverObject C).run getServerObject ops = some instances) (allocated : Bool)
    (instanceId : Nat) (items : Items V) (writeType : WriteType)
    (htype : writeType ≠ .replaceInstance) (hitems : ProperItems C items.toList) :
    (∀ after, prvServerWrite C allocated instances instanceId items writeType =
        (.changed204, after) → ReadsBack C instances after instanceId items.toList) ↔
    ∀ target, findInstance instanceId instances = some target →
      refusal C items.toList = none →
        ∀ item ∈ items.toList, item.id = serverBindingId →
          ∀ buffer, C.asBuffer item.value = some buffer →
            target.binding.byte buffer.length = 0 := by
  have hJ := serverJ_run C serverJ_getServerObject hrun
  cases hfound : findInstance instanceId instances with
  | none =>
      rw [prvServerWrite_of_none C items allocated writeType hfound]
      refine iff_of_true (fun after h => ?_) (fun target h => by cases h)
      cases (Prod.mk.inj h).1
  | some target =>
      have hid := KeyedList.key_of_find hfound
      have hterm := hJ.2 target (KeyedList.mem_of_find hfound)
      rw [prvServerWrite_of_some C items allocated htype hfound]
      simp only [Prod.mk.injEq, refusal_getD_eq_changed, and_imp, Option.some.injEq, forall_eq']
      have hid' := (applyAll_instanceId (accepted C items.toList) target).trans hid
      have hafter : findInstance instanceId (KeyedList.put ServerInstance.instanceId instanceId
          (applyAll (accepted C items.toList) target) instances) =
            some (applyAll (accepted C items.toList) target) :=
        KeyedList.find_put_same hid' hfound
      have hiff : ∀ (hrefusal : refusal C items.toList = none) (item : Item V)
          (hitem : item ∈ items.toList), _ := fun hrefusal item hitem =>
        resourceValue_written_iff C hitems.ids hrefusal hitem
          (fun h buffer hb => (hitems.binding item hitem h buffer hb).2) hterm
      constructor
      · intro hreads hrefusal item hitem
        apply (hiff hrefusal item hitem).mp
        obtain ⟨value, hvalue, hsame⟩ := (hreads _ hrefusal rfl).written item hitem
        exact ⟨value, (readResource_eq_content C hafter item.id value).mp hvalue, hsame⟩
      · rintro hnul after hrefusal rfl
        refine ⟨fun item hitem => ?_, fun resourceId hmem => ?_, fun other resourceId hne => ?_⟩
        · obtain ⟨value, hvalue, hsame⟩ := (hiff hrefusal item hitem).mpr (hnul hrefusal item hitem)
          exact ⟨value, (readResource_eq_content C hafter item.id value).mpr hvalue, hsame⟩
        · rw [readResource_of_some C hafter, readResource_of_some C hfound,
            resourceValue_untouched C hmem]
        · exact readResource_congr C (KeyedList.find_put_other hid' hne instances) resourceId

end ReadAfterWrite

/-- The item that writes a binding. -/
def bindingItem (text : String) : Items Value :=
  .single serverBindingId (.bytes (asciiBytes text))

theorem bindingItem_proper {text : String} (h : asciiBytes text ≠ [] ∧ 0 ∉ asciiBytes text) :
    ProperItems valueCodec (bindingItem text).toList := by
  refine ⟨List.nodup_singleton _, ?_⟩
  intro item hitem _ buffer hbuffer
  obtain rfl := List.mem_singleton.mp hitem
  obtain rfl := Option.some.inj hbuffer
  exact h

attribute [local instance] KeyedList.ordered

theorem read_after_write_longer_binding :
    ∃ after, prvServerWrite valueCodec true getServerObject 0 (bindingItem "UQ")
        .partialUpdate = (.changed204, after) ∧
      ReadsBack valueCodec getServerObject after 0 (bindingItem "UQ").toList := by
  refine ⟨_, rfl, (read_after_write_iff valueCodec [] rfl true 0 (bindingItem "UQ")
    .partialUpdate (by decide) (bindingItem_proper (by decide))).mpr ?_ _ rfl⟩
  intro target htarget _ item hitem _ buffer hbuffer
  obtain rfl := Option.some.inj htarget
  obtain rfl := List.mem_singleton.mp hitem
  obtain rfl := Option.some.inj hbuffer
  decide

/-- The object after the binding of instance 0 was set to a text. -/
def withBinding (instances : List ServerInstance) (text : String) : List ServerInstance :=
  (prvServerWrite valueCodec true instances 0 (bindingItem text) .partialUpdate).2

/-- After the binding `UQS` a write of `U` reads back as `UQS`. -/
theorem shorter_binding_keeps_tail :
    ¬ ∀ (ops : List (ServerOp Value)) (instances : List ServerInstance),
      (serverObject valueCodec).run getServerObject ops = some instances →
        ∀ (instanceId : Nat) (items : Items Value), ProperItems valueCodec items.toList →
          ∀ after, prvServerWrite valueCodec true instances instanceId items .partialUpdate =
              (.changed204, after) →
            ReadsBack valueCodec instances after instanceId items.toList := by
  intro h
  have hreads := h [.write 0 (bindingItem "UQS") .partialUpdate true]
    (withBinding getServerObject "UQS") rfl 0 (bindingItem "U") (bindingItem_proper (by decide))
    (withBinding (withBinding getServerObject "UQS") "U") rfl
  obtain ⟨value, hvalue, hsame⟩ := hreads.written _ List.mem_cons_self
  have hread : readResource valueCodec (withBinding (withBinding getServerObject "UQS") "U") 0
      serverBindingId = (.content205, [⟨serverBindingId, .bytes (asciiBytes "UQS")⟩]) := by
    decide
  have hitems := (Prod.mk.inj (hread.symm.trans hvalue)).2
  obtain rfl : .bytes (asciiBytes "UQS") = value := (Item.mk.inj (List.cons.inj hitems).1).2
  have hbytes : asciiBytes "UQS" = asciiBytes "U" := Option.some.inj hsame
  exact absurd hbytes (by decide)

end Uiso.Lwm2m
