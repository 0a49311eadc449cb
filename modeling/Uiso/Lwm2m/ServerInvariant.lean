/-
  Lwm2m/ServerInvariant.lean --- the Server object under every sequence of
  operations of the LWM2M core.

  Two invariants.  `ServerJ` is kept by every operation: the instance ids are
  distinct and the last byte of every binding is NUL, since at most three bytes are
  ever copied to it.  `ServerGood` is what the resource table at the head of the
  source asks for; an operation keeps it precisely if the updates it applies do
  (`serverGood_step_iff`).
-/
import Uiso.Lwm2m.ServerObject
import Uiso.Foundation.Machine

set_option autoImplicit false

namespace Uiso.Lwm2m

open Uiso.Foundation

/-! ## The operations of the core -/

/-- An operation on the object.  `allocated` says whether an allocation it makes
succeeds. -/
inductive ServerOp (V : Type) where
  | create (instanceId : Nat) (items : Items V) (allocated : Bool)
  | write (instanceId : Nat) (items : Items V) (writeType : WriteType) (allocated : Bool)
  | delete (instanceId : Nat)
  deriving DecidableEq, Repr

section Operations

variable [KeyedList ServerInstance.instanceId]
variable {V : Type} (C : DataCodec V)

/-- The instance list after an operation.  The core creates an instance only under an id
that is not present. -/
def serverStep (instances : List ServerInstance) : ServerOp V → Option (List ServerInstance)
  | .create instanceId items allocated =>
      if findInstance instanceId instances = none then
        some (prvServerCreate C allocated instances instanceId items).2
      else none
  | .write instanceId items writeType allocated =>
      some (prvServerWrite C allocated instances instanceId items writeType).2
  | .delete instanceId => some (prvServerDelete instances instanceId).2

/-- The Server object under the operations of the core. -/
def serverObject : Machine (List ServerInstance) (ServerOp V) := ⟨serverStep C⟩

end Operations

/-! ## The invariants -/

/-- Short Server ID in 1..65535, binding a nonempty string that ends within its array. -/
def GoodInstance (i : ServerInstance) : Prop :=
  1 ≤ i.shortServerId.toNat ∧ i.shortServerId.toNat ≤ 65535 ∧
    ∃ s ∈ i.binding.cString, s ≠ []

instance (i : ServerInstance) : Decidable (GoodInstance i) :=
  inferInstanceAs (Decidable (_ ∧ _ ∧ _))

/-- Every instance is good and the ids are pairwise distinct. -/
def ServerGood (instances : List ServerInstance) : Prop :=
  (instances.map ServerInstance.instanceId).Nodup ∧ ∀ i ∈ instances, GoodInstance i

instance (instances : List ServerInstance) : Decidable (ServerGood instances) :=
  inferInstanceAs (Decidable (_ ∧ _))

/-- The binding ends within its array. -/
def Terminated (i : ServerInstance) : Prop := i.binding.byte 3 = 0

/-- What every operation keeps. -/
def ServerJ (instances : List ServerInstance) : Prop :=
  (instances.map ServerInstance.instanceId).Nodup ∧ ∀ i ∈ instances, Terminated i

/-- A terminated binding is a string, and it is empty only if its first byte is NUL. -/
theorem Terminated.cString {i : ServerInstance} (h : Terminated i) :
    ∃ s, i.binding.cString = some s ∧ (s ≠ [] ↔ i.binding.byte 0 ≠ 0) := by
  have hnul : (0 : UInt8) ∈ i.binding.bytes := by
    have hbyte := Buffer.getElem?_bytes i.binding (show 3 < 4 by decide)
    rw [show i.binding.byte 3 = 0 from h] at hbyte
    exact List.mem_of_getElem? hbyte
  have hsome : i.binding.cString = some (i.binding.bytes.takeWhile (· ≠ 0)) := if_pos hnul
  refine ⟨_, hsome, ?_⟩
  obtain ⟨_, hfree, hbytes, hend⟩ := Buffer.cString_eq_some.mp hsome
  constructor
  · intro hne hzero
    have hfirst := hbytes 0 (List.length_pos_of_ne_nil hne)
    rw [hzero] at hfirst
    exact hfree (List.mem_of_getElem? hfirst)
  · intro hfirst hnil
    rw [hnil] at hend
    exact hfirst hend

theorem goodInstance_iff {i : ServerInstance} (h : Terminated i) :
    GoodInstance i ↔ i.shortServerId ≠ 0 ∧ i.binding.byte 0 ≠ 0 := by
  obtain ⟨s, hs, hne⟩ := h.cString
  have hlt := i.shortServerId.toNat_lt
  have hzero : i.shortServerId ≠ 0 ↔ 1 ≤ i.shortServerId.toNat := by
    rw [ne_eq, ← UInt16.toNat_inj]
    simp only [UInt16.toNat_zero]
    omega
  unfold GoodInstance
  rw [hzero, hs]
  simp only [Option.mem_def, Option.some.injEq, exists_eq_left', hne]
  constructor
  · rintro ⟨hpos, _, hbyte⟩
    exact ⟨hpos, hbyte⟩
  · rintro ⟨hpos, hbyte⟩
    exact ⟨hpos, by omega, hbyte⟩

/-! ## Accepted updates -/

section Updates

variable {V : Type} (C : DataCodec V) (items : List (Item V))

/-- An accepted Short Server ID is not zero. -/
theorem latest_newShortServerId_ne_zero {v : UInt16}
    (h : Trace.latest Update.newShortServerId (accepted C items) = some v) : v ≠ 0 := by
  obtain ⟨u, hu, hv⟩ := Trace.exists_of_latest h
  obtain ⟨item, _, hitem⟩ := exists_item_of_accepted C hu
  cases itemUpdate_ok C hitem with
  | shortServerId n hid hn hpos hle =>
      obtain rfl : UInt16.ofNat n.toNat = v := Option.some.inj hv
      intro hzero
      have hlt : n.toNat < 2 ^ 16 := by omega
      have hnat := congrArg UInt16.toNat hzero
      rw [UInt16.toNat_ofNat_of_lt' hlt, UInt16.toNat_zero] at hnat
      omega
  | lifetime => cases hv
  | storing => cases hv
  | binding => cases hv

/-- No accepted binding reaches the last byte of the array. -/
theorem latest_newBindingByte_three :
    Trace.latest (Update.newBindingByte 3) (accepted C items) = none := by
  rw [Trace.latest_eq_none_iff]
  intro u hu
  obtain ⟨item, _, hitem⟩ := exists_item_of_accepted C hu
  cases itemUpdate_ok C hitem with
  | binding buffer hid hbuffer hpos hle => exact if_neg (Nat.not_lt.mpr hle)
  | _ => rfl

theorem Terminated.applyAll {target : ServerInstance} (h : Terminated target) :
    Terminated (applyAll (accepted C items) target) := by
  unfold Terminated
  rw [applyAll_bindingByte (by decide), latest_newBindingByte_three]
  exact h

theorem blank_terminated (instanceId : Nat) : Terminated (.blank instanceId) := rfl

/-- The updates give a blank instance all it needs: a Short Server ID, and a binding whose
first byte is not NUL. -/
def Complete (us : List Update) : Prop :=
  Trace.latest Update.newShortServerId us ≠ none ∧
    ∃ c ∈ Trace.latest (Update.newBindingByte 0) us, c ≠ 0

instance (us : List Update) : Decidable (Complete us) :=
  inferInstanceAs (Decidable (_ ∧ _))

/-- The updates do not leave an instance with an empty binding: the last one of its first
byte is not NUL. -/
def KeepsBinding (us : List Update) : Prop :=
  Trace.latest (Update.newBindingByte 0) us ≠ some 0

instance (us : List Update) : Decidable (KeepsBinding us) :=
  inferInstanceAs (Decidable (_ ≠ _))

theorem good_blank_iff (instanceId : Nat) :
    GoodInstance (applyAll (accepted C items) (.blank instanceId)) ↔
      Complete (accepted C items) := by
  rw [goodInstance_iff ((blank_terminated instanceId).applyAll C items),
    applyAll_shortServerId, applyAll_bindingByte (by decide)]
  refine and_congr ?_ ?_
  · cases hshort : Trace.latest Update.newShortServerId (accepted C items) with
    | none => simp [ServerInstance.blank]
    | some v => simpa using latest_newShortServerId_ne_zero C items hshort
  · cases Trace.latest (Update.newBindingByte 0) (accepted C items) with
    | none => simp [ServerInstance.blank, Buffer.zero, Buffer.byte]
    | some c => simp

theorem good_applyAll_iff {target : ServerInstance} (hterm : Terminated target)
    (hgood : GoodInstance target) :
    GoodInstance (applyAll (accepted C items) target) ↔ KeepsBinding (accepted C items) := by
  obtain ⟨hshort, hbyte⟩ := (goodInstance_iff hterm).mp hgood
  unfold KeepsBinding
  rw [goodInstance_iff (hterm.applyAll C items), applyAll_shortServerId,
    applyAll_bindingByte (by decide)]
  have hshort' : (Trace.latest Update.newShortServerId (accepted C items)).getD
      target.shortServerId ≠ 0 := by
    cases hlatest : Trace.latest Update.newShortServerId (accepted C items) with
    | none => exact hshort
    | some v => exact latest_newShortServerId_ne_zero C items hlatest
  rw [and_iff_right hshort']
  cases Trace.latest (Update.newBindingByte 0) (accepted C items) with
  | none => simpa using hbyte
  | some c => simp

end Updates

/-! ## Instance lists -/

section Lists

variable {instances : List ServerInstance} {instanceId : Nat} {i target : ServerInstance}

/-- A property of the ids and of every instance, of which the two invariants are cases. -/
def Uniform (Q : ServerInstance → Prop) (instances : List ServerInstance) : Prop :=
  (instances.map ServerInstance.instanceId).Nodup ∧ ∀ i ∈ instances, Q i

theorem Uniform.sublist {Q : ServerInstance → Prop} {shorter : List ServerInstance}
    (h : Uniform Q instances) (hsub : shorter.Sublist instances) : Uniform Q shorter :=
  ⟨h.1.sublist (hsub.map _), fun i hi => h.2 i (hsub.subset hi)⟩

variable [KeyedList ServerInstance.instanceId]

/-- Adding an instance under a new id. -/
theorem uniform_add_iff {Q : ServerInstance → Prop} (h : Uniform Q instances)
    (hid : i.instanceId = instanceId) (hnew : findInstance instanceId instances = none) :
    Uniform Q (KeyedList.add ServerInstance.instanceId i instances) ↔ Q i := by
  have hperm := KeyedList.add_perm ServerInstance.instanceId i instances
  constructor
  · intro hadd
    exact hadd.2 i (hperm.mem_iff.mpr List.mem_cons_self)
  · intro hi
    constructor
    · rw [(hperm.map ServerInstance.instanceId).nodup_iff, List.map_cons, List.nodup_cons]
      refine ⟨?_, h.1⟩
      rw [List.mem_map, hid]
      rintro ⟨j, hj, hjid⟩
      exact KeyedList.find_eq_none_iff.mp hnew j hj hjid
    · intro j hj
      rcases List.mem_cons.mp (hperm.mem_iff.mp hj) with rfl | hj
      · exact hi
      · exact h.2 j hj

/-- Overwriting the instance with an id. -/
theorem uniform_put_iff {Q : ServerInstance → Prop} (h : Uniform Q instances)
    (hid : i.instanceId = instanceId) (hfound : findInstance instanceId instances = some target) :
    Uniform Q (KeyedList.put ServerInstance.instanceId instanceId i instances) ↔ Q i := by
  constructor
  · intro hput
    exact hput.2 i (KeyedList.mem_of_find (KeyedList.find_put_same hid hfound))
  · intro hi
    constructor
    · rw [KeyedList.map_key_put hid]
      exact h.1
    · intro j hj
      rcases KeyedList.mem_put hj with rfl | hj
      · exact hi
      · exact h.2 j hj

theorem findInstance_remove {Q : ServerInstance → Prop} (h : Uniform Q instances) :
    findInstance instanceId
      (KeyedList.remove ServerInstance.instanceId instanceId instances) = none :=
  KeyedList.find_remove h.1

end Lists

/-! ## What an operation does to the invariants -/

section Steps

variable [KeyedList ServerInstance.instanceId]
variable {V : Type} (C : DataCodec V) {instances instances' : List ServerInstance}

/-- The condition under which an operation keeps `Q`, when `fresh` says it of the updates
of a new instance and `change` of those of an existing one. -/
def ServerOp.Keeps (fresh change : List Update → Prop) (instances : List ServerInstance) :
    ServerOp V → Prop
  | .create _ items allocated =>
      allocated = true → refusal C items.toList = none → fresh (accepted C items.toList)
  | .write instanceId items .replaceInstance allocated =>
      findInstance instanceId instances ≠ none → allocated = true →
        refusal C items.toList = none → fresh (accepted C items.toList)
  | .write instanceId items _ _ =>
      findInstance instanceId instances ≠ none → change (accepted C items.toList)
  | .delete _ => True

/-- A creation under a new id keeps `Q` precisely if the instance it builds has it. -/
theorem uniform_create_iff {Q : ServerInstance → Prop} {fresh : List Update → Prop}
    (hfresh : ∀ instanceId items,
      Q (applyAll (accepted C items) (.blank instanceId)) ↔ fresh (accepted C items))
    (h : Uniform Q instances) {instanceId : Nat} (items : Items V) (allocated : Bool)
    (hnew : findInstance instanceId instances = none) :
    Uniform Q (prvServerCreate C allocated instances instanceId items).2 ↔
      (allocated = true → refusal C items.toList = none → fresh (accepted C items.toList)) := by
  rw [prvServerCreate_of_none C items allocated hnew]
  split
  · rename_i hdone
    rw [uniform_add_iff h (applyAll_instanceId _ _) hnew, hfresh]
    exact ⟨fun hf _ _ => hf, fun hf => hf hdone.1 hdone.2⟩
  · rename_i hfailed
    exact ⟨fun _ ha hr => absurd ⟨ha, hr⟩ hfailed, fun _ => h⟩

/-- A deletion keeps every such property. -/
theorem Uniform.delete {Q : ServerInstance → Prop} (h : Uniform Q instances)
    (instanceId : Nat) : Uniform Q (prvServerDelete instances instanceId).2 := by
  cases hfound : findInstance instanceId instances with
  | none =>
      simp only [prvServerDelete, hfound]
      exact h
  | some target =>
      rw [prvServerDelete_of_some hfound]
      exact h.sublist (KeyedList.remove_sublist _ instanceId instances)

/-- A replacement keeps `Q` precisely if the instance it builds has it. -/
theorem uniform_replace_iff {Q : ServerInstance → Prop} {fresh : List Update → Prop}
    (hfresh : ∀ instanceId items,
      Q (applyAll (accepted C items) (.blank instanceId)) ↔ fresh (accepted C items))
    (h : Uniform Q instances) {instanceId : Nat} (items : Items V) (allocated : Bool)
    {target : ServerInstance} (hfound : findInstance instanceId instances = some target) :
    Uniform Q (prvServerWrite C allocated instances instanceId items .replaceInstance).2 ↔
      (allocated = true → refusal C items.toList = none → fresh (accepted C items.toList)) := by
  rw [prvServerWrite_replace C items allocated hfound]
  have hrest := h.sublist
    (KeyedList.remove_sublist ServerInstance.instanceId instanceId instances)
  exact uniform_create_iff C hfresh hrest items allocated (findInstance_remove h)

/-- Any other write keeps `Q` precisely if the instance it changes keeps it. -/
theorem uniform_update_iff {Q : ServerInstance → Prop} {change : List Update → Prop}
    (hchange : ∀ target ∈ instances, ∀ items,
      Q (applyAll (accepted C items) target) ↔ change (accepted C items))
    (h : Uniform Q instances) {instanceId : Nat} (items : Items V) (allocated : Bool)
    {writeType : WriteType} (htype : writeType ≠ .replaceInstance) {target : ServerInstance}
    (hfound : findInstance instanceId instances = some target) :
    Uniform Q (prvServerWrite C allocated instances instanceId items writeType).2 ↔
      change (accepted C items.toList) := by
  have hid := KeyedList.key_of_find hfound
  rw [prvServerWrite_of_some C items allocated htype hfound,
    uniform_put_iff h ((applyAll_instanceId _ _).trans hid) hfound]
  exact hchange target (KeyedList.mem_of_find hfound) items.toList

/-- The step rule for both invariants. -/
theorem uniform_step_iff {Q : ServerInstance → Prop} (fresh change : List Update → Prop)
    (hfresh : ∀ instanceId items,
      Q (applyAll (accepted C items) (.blank instanceId)) ↔ fresh (accepted C items))
    (hchange : ∀ target ∈ instances, ∀ items,
      Q (applyAll (accepted C items) target) ↔ change (accepted C items))
    (h : Uniform Q instances) {op : ServerOp V}
    (hstep : (serverObject C).step instances op = some instances') :
    Uniform Q instances' ↔ op.Keeps C fresh change instances := by
  cases op with
  | create instanceId items allocated =>
      simp only [serverObject, serverStep] at hstep
      split at hstep
      · rename_i hnew
        obtain rfl := Option.some.inj hstep
        exact uniform_create_iff C hfresh h items allocated hnew
      · cases hstep
  | delete instanceId =>
      obtain rfl := Option.some.inj hstep
      exact iff_of_true (h.delete instanceId) trivial
  | write instanceId items writeType allocated =>
      obtain rfl := Option.some.inj hstep
      cases hfound : findInstance instanceId instances with
      | none =>
          rw [prvServerWrite_of_none C items allocated writeType hfound]
          refine iff_of_true h ?_
          cases writeType <;> exact fun hne => absurd hfound hne
      | some target =>
          have hsome : findInstance instanceId instances ≠ none := by
            rw [hfound]
            exact Option.some_ne_none target
          cases writeType with
          | replaceInstance =>
              have hreplace := uniform_replace_iff C hfresh h items allocated hfound
              exact hreplace.trans ⟨fun hc _ => hc, fun hc => hc hsome⟩
          | partialUpdate =>
              have hupdate := uniform_update_iff C hchange h items allocated
                (by decide : WriteType.partialUpdate ≠ .replaceInstance) hfound
              exact hupdate.trans ⟨fun hc _ => hc, fun hc => hc hsome⟩
          | replaceResources =>
              have hupdate := uniform_update_iff C hchange h items allocated
                (by decide : WriteType.replaceResources ≠ .replaceInstance) hfound
              exact hupdate.trans ⟨fun hc _ => hc, fun hc => hc hsome⟩

/-- Every operation keeps the ids distinct and the bindings terminated. -/
theorem serverJ_step {op : ServerOp V} (h : ServerJ instances)
    (hstep : (serverObject C).step instances op = some instances') : ServerJ instances' := by
  refine (uniform_step_iff C (fun _ => True) (fun _ => True) ?_ ?_ h hstep).mpr ?_
  · intro instanceId items
    exact iff_of_true ((blank_terminated instanceId).applyAll C items) trivial
  · intro target htarget items
    exact iff_of_true ((h.2 target htarget).applyAll C items) trivial
  · cases op with
    | create => exact fun _ _ => trivial
    | write instanceId items writeType allocated => cases writeType <;> simp [ServerOp.Keeps]
    | delete => exact trivial

/-- The operations that keep the resource table: the updates that build an instance are
complete, those that change one do not empty its binding. -/
def ServerOp.Sound (instances : List ServerInstance) (op : ServerOp V) : Prop :=
  op.Keeps C Complete KeepsBinding instances

theorem serverGood_step_iff {op : ServerOp V} (hJ : ServerJ instances)
    (h : ServerGood instances)
    (hstep : (serverObject C).step instances op = some instances') :
    ServerGood instances' ↔ op.Sound C instances :=
  uniform_step_iff C Complete KeepsBinding
    (fun instanceId items => good_blank_iff C items instanceId)
    (fun target htarget items =>
      good_applyAll_iff C items (hJ.2 target htarget) (h.2 target htarget)) h hstep

theorem serverJ_getServerObject : ServerJ getServerObject := by
  rw [getServerObject_eq]
  refine ⟨by decide, ?_⟩
  intro i hi
  obtain rfl := List.mem_singleton.mp hi
  rfl

theorem serverJ_run {ops : List (ServerOp V)} (h : ServerJ instances)
    (hrun : (serverObject C).run instances ops = some instances') : ServerJ instances' := by
  have halways : (serverObject C).Always ServerJ instances ops :=
    Machine.always_of_invariant (fun _ _ _ hJ hstep => serverJ_step C hJ hstep)
      (fun _ hJ => hJ) h
  exact halways.last hrun

theorem serverGood_getServerObject : ServerGood getServerObject := by
  rw [getServerObject_eq]
  decide

/-- Along any sequence of operations from the object `get_server_object` builds, the
resource table holds in every state precisely if every operation is sound: a creation or
replacement that succeeds has an item for the Short Server ID and one for the binding, and
the last binding item any write applies does not start with NUL. -/
theorem server_instances_good_iff (ops : List (ServerOp V)) :
    (serverObject C).Always ServerGood getServerObject ops ↔
      (serverObject C).Guarded (fun instances op => op.Sound C instances) getServerObject ops :=
  Machine.always_iff_guarded (fun _ _ _ hJ hstep => serverJ_step C hJ hstep)
    (fun _ _ _ hJ hgood hstep => serverGood_step_iff C hJ hgood hstep)
    serverJ_getServerObject serverGood_getServerObject

end Steps

attribute [local instance] KeyedList.ordered

/-- A creation that carries only a lifetime leaves an instance with Short Server ID 0 and an
empty binding. -/
theorem create_without_short_id :
    ¬ ∀ ops : List (ServerOp Value),
      (serverObject valueCodec).Always ServerGood getServerObject ops := by
  intro h
  exact absurd (h [.create 1 (.single serverLifetimeId (.int 300)) true]) (by decide)

end Uiso.Lwm2m
