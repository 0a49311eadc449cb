/-
  Lwm2m/Discover.lean --- the Device and Accelerometer objects
  (src/lwm2m/lightclient/object_device.c, object_accelerometer.c), and how the
  discover functions of the three objects compare with their read functions.

  Every object keeps its resources in several tables: the ids its read function has
  a value for, those its discover function knows, those its execute function
  performs.  For each object one table is read off each function; discover and read
  agree on a list of ids where these tables do.
-/
import Uiso.Lwm2m.ServerWrite

set_option autoImplicit false

namespace Uiso.Lwm2m

open Uiso.Foundation

/-! ## object_device.c -/

/-- `RES_O_MANUFACTURER` -/
@[match_pattern] abbrev resManufacturer : Nat := 0

/-- `RES_O_MODEL_NUMBER` -/
@[match_pattern] abbrev resModelNumber : Nat := 1

/-- `RES_O_SERIAL_NUMBER` -/
@[match_pattern] abbrev resSerialNumber : Nat := 2

/-- `RES_O_FIRMWARE_VERSION` -/
@[match_pattern] abbrev resFirmwareVersion : Nat := 3

/-- `RES_M_REBOOT` -/
@[match_pattern] abbrev resReboot : Nat := 4

/-- `RES_O_BATTERY_LEVEL` -/
@[match_pattern] abbrev resBatteryLevel : Nat := 9

/-- `RES_O_CURRENT_TIME` -/
@[match_pattern] abbrev resCurrentTime : Nat := 13

/-- `RES_M_BINDING_MODES` -/
@[match_pattern] abbrev resBindingModes : Nat := 16

/-- `RES_O_HARDWARE_VERSION` -/
@[match_pattern] abbrev resHardwareVersion : Nat := 18

/-- `RES_O_SOFTWARE_VERSION` -/
@[match_pattern] abbrev resSoftwareVersion : Nat := 19

/-- The list in `prv_device_read` and in `prv_device_discover`. -/
def deviceResourceList : List Nat :=
  [resManufacturer, resModelNumber, resSerialNumber, resFirmwareVersion, resHardwareVersion,
    resSoftwareVersion, resBatteryLevel, resCurrentTime, resBindingModes]

section Functions

variable {V : Type} (C : DataCodec V)

/-- `prv_set_value`; `time` is what `lwm2m_gettime` returns. -/
def prvSetValue (time : Int) (item : Item V) : Except CoapStatus V :=
  match item.id with
  | resManufacturer => .ok (C.encodeString (asciiBytes "Llobetian Tecnologica"))
  | resModelNumber => .ok (C.encodeString (asciiBytes "XDK100 FreeRTOS+Wakaama+mbedTLS"))
  | resSerialNumber => .ok (C.encodeString (asciiBytes "15-01021"))
  | resFirmwareVersion => .ok (C.encodeString (asciiBytes "v0.0.0"))
  | resHardwareVersion => .ok (C.encodeString (asciiBytes "Bosch XDK110"))
  | resSoftwareVersion => .ok (C.encodeString (asciiBytes "v0.0.0"))
  | resBatteryLevel => .ok (C.encodeInt 100)
  | resCurrentTime => .ok (C.encodeInt time)
  | resReboot => .error .methodNotAllowed405
  | resBindingModes => .ok (C.encodeString (asciiBytes "U"))
  | _ => .error .notFound404

/-- One round of the loop of `prv_device_read`. -/
def deviceReadItem (time : Int) (item : Item V) : Except CoapStatus V :=
  if C.multipleResource item.value then .error .notFound404 else prvSetValue C time item

/-- `prv_device_read` -/
def prvDeviceRead (time : Int) (allocated : Bool) (instanceId : Nat) (items : List (Item V)) :
    CoapStatus × List (Item V) :=
  if instanceId ≠ 0 then (.notFound404, items)
  else
    match items with
    | [] =>
        if allocated then
          readItems (deviceReadItem C time) (itemsOf C.undefined deviceResourceList)
        else (.internalServerError500, [])
    | item :: rest => readItems (deviceReadItem C time) (item :: rest)

/-- `prv_device_discover` -/
def prvDeviceDiscover (allocated : Bool) (instanceId : Nat) (ids : List Nat) :
    CoapStatus × List Nat :=
  if instanceId ≠ 0 then (.notFound404, ids)
  else
    match ids with
    | [] =>
        if allocated then (.content205, deviceResourceList) else (.internalServerError500, [])
    | id :: rest => (discoverIds deviceResourceList.contains (id :: rest), id :: rest)

/-- `prv_device_execute` with `length` bytes of arguments -/
def prvDeviceExecute (instanceId resourceId length : Nat) : CoapStatus :=
  if instanceId ≠ 0 then .notFound404
  else if length ≠ 0 then .badRequest400
  else if resourceId = resReboot then .changed204
  else .methodNotAllowed405

/-! ## object_accelerometer.c -/

/-- `lwm2m_accel_x_value` -/
@[match_pattern] abbrev accelXValue : Nat := 5702

/-- `lwm2m_accel_y_value` -/
@[match_pattern] abbrev accelYValue : Nat := 5703

/-- `lwm2m_accel_z_value` -/
@[match_pattern] abbrev accelZValue : Nat := 5704

/-- `lwm2m_accel_sensor_units` -/
@[match_pattern] abbrev accelSensorUnits : Nat := 5701

/-- `lwm2m_accel_application_type` -/
@[match_pattern] abbrev accelApplicationType : Nat := 5750

/-- `resource_list` -/
def accelResourceList : List Nat :=
  [accelXValue, accelYValue, accelZValue, accelSensorUnits, accelApplicationType]

/-- `struct accelerometer_values_s`, the bits of its `float`s. -/
structure AccelerometerValues where
  x : BitVec 32
  y : BitVec 32
  z : BitVec 32
  deriving DecidableEq, Repr

/-- The `switch` of `accel_read`; it does not look at the type of the item. -/
def accelReadItem (values : AccelerometerValues) (item : Item V) : Except CoapStatus V :=
  match item.id with
  | accelXValue => .ok (C.encodeFloat values.x)
  | accelYValue => .ok (C.encodeFloat values.y)
  | accelZValue => .ok (C.encodeFloat values.z)
  | accelSensorUnits => .ok (C.encodeString (asciiBytes "LSB"))
  | accelApplicationType => .ok (C.encodeString (asciiBytes "Bosch Sensortec BMA280"))
  | _ => .error .notFound404

/-- `accel_read` -/
def accelRead (values : AccelerometerValues) (allocated : Bool) (instanceId : Nat)
    (items : List (Item V)) : CoapStatus × List (Item V) :=
  if instanceId > 0 then (.notFound404, items)
  else
    match items with
    | [] =>
        if allocated then readItems (accelReadItem C values) (itemsOf C.undefined accelResourceList)
        else (.internalServerError500, [])
    | item :: rest => readItems (accelReadItem C values) (item :: rest)

/-- `accel_discover`; it does not look at the instance id. -/
def accelDiscover (allocated : Bool) (ids : List Nat) : CoapStatus × List Nat :=
  match ids with
  | [] => if allocated then (.content205, accelResourceList) else (.internalServerError500, [])
  | id :: rest => (discoverIds accelResourceList.contains (id :: rest), id :: rest)

end Functions

/-! ## The three objects -/

/-- An object of the light client, with the state its functions read. -/
inductive LightObject where
  | server (instances : List ServerInstance)
  | device (time : Int)
  | accelerometer (values : AccelerometerValues)
  deriving DecidableEq

/-! ## The ids each function knows -/

/-- Two predicates of which one contains the other hold of all of a list together precisely
if some element has neither, or none has only one. -/
theorem forall_iff_forall_iff {p q : Nat → Prop}
    (h : (∀ x, p x → q x) ∨ ∀ x, q x → p x) (ids : List Nat) :
    ((∀ x ∈ ids, p x) ↔ ∀ x ∈ ids, q x) ↔
      (∃ x ∈ ids, ¬p x ∧ ¬q x) ∨ ∀ x ∈ ids, (p x ↔ q x) := by
  constructor
  · intro hiff
    by_cases hp : ∀ x ∈ ids, p x
    · exact .inr fun x hx => iff_of_true (hp x hx) (hiff.mp hp x hx)
    · left
      have hq : ¬∀ x ∈ ids, q x := fun hq => hp (hiff.mpr hq)
      simp only [not_forall] at hp hq
      obtain ⟨x, hx, hpx⟩ := hp
      obtain ⟨y, hy, hqy⟩ := hq
      cases h with
      | inl hpq => exact ⟨y, hy, fun hpy => hqy (hpq y hpy), hqy⟩
      | inr hqp => exact ⟨x, hx, hpx, fun hqx => hpx (hqp x hqx)⟩
  · rintro (⟨x, hx, hpx, hqx⟩ | hsame)
    · exact iff_of_false (fun hp => hpx (hp x hx)) (fun hq => hqx (hq x hx))
    · exact forall₂_congr hsame

namespace LightObject

/-- The discover function. -/
def discover (allocated : Bool) (instanceId : Nat) (ids : List Nat) :
    LightObject → CoapStatus × List Nat
  | .server _ => prvServerDiscover allocated ids
  | .device _ => prvDeviceDiscover allocated instanceId ids
  | .accelerometer _ => accelDiscover allocated ids

/-- The ids the discover function knows in an instance. -/
def Discovered (instanceId id : Nat) : LightObject → Prop
  | .server _ => id ∈ serverDiscoverList
  | .device _ => instanceId = 0 ∧ id ∈ deviceResourceList
  | .accelerometer _ => id ∈ accelResourceList

theorem discover_content_iff (allocated : Bool) (object : LightObject) (instanceId : Nat)
    {ids : List Nat} (hids : ids ≠ []) :
    (object.discover allocated instanceId ids).1 = .content205 ↔
      ∀ id ∈ ids, object.Discovered instanceId id := by
  obtain ⟨first, rest, rfl⟩ := List.exists_cons_of_ne_nil hids
  cases object with
  | server instances =>
      simp only [discover, prvServerDiscover, discoverIds_eq_content, Discovered,
        List.contains_iff_mem]
  | device time =>
      simp only [discover, prvDeviceDiscover, Discovered]
      split
      · rename_i hne
        refine iff_of_false (fun h => by cases h) ?_
        intro h
        exact hne (h first List.mem_cons_self).1
      · rename_i heq
        have hzero : instanceId = 0 := Decidable.of_not_not heq
        simp only [discoverIds_eq_content, hzero, true_and, List.contains_iff_mem]
  | accelerometer values =>
      simp only [discover, accelDiscover, discoverIds_eq_content, Discovered,
        List.contains_iff_mem]

variable {V : Type} (C : DataCodec V)

theorem resourceValue_ok_iff (target : ServerInstance) (id : Nat) :
    (∃ value, resourceValue C target id = .ok value) ↔ id ∈ serverReadList := by
  unfold resourceValue prvGetValue
  dsimp only
  split <;> simp_all [serverReadList]

theorem deviceReadItem_cases (time : Int) (id : Nat) :
    (∃ value, deviceReadItem C time ⟨id, C.undefined⟩ = .ok value) ↔
      id ∈ deviceResourceList := by
  simp only [deviceReadItem, C.undefined_single, Bool.false_eq_true, if_false]
  unfold prvSetValue
  dsimp only
  split <;> simp_all [deviceResourceList]

theorem accelReadItem_cases (values : AccelerometerValues) (id : Nat) :
    (∃ value, accelReadItem C values ⟨id, C.undefined⟩ = .ok value) ↔
      id ∈ accelResourceList := by
  unfold accelReadItem
  dsimp only
  split <;> simp_all [accelResourceList]

theorem device_readStatus_iff (time : Int) (instanceId id : Nat) :
    (prvDeviceRead C time true instanceId [⟨id, C.undefined⟩]).1 = .content205 ↔
      instanceId = 0 ∧ id ∈ deviceResourceList := by
  rw [← deviceReadItem_cases C time]
  by_cases h : instanceId = 0
  · simp only [prvDeviceRead, h, ne_eq, not_true_eq_false, if_false, true_and]
    apply readItems_single_status
    simp only [deviceReadItem, C.undefined_single, Bool.false_eq_true, if_false]
    unfold prvSetValue
    dsimp only
    split <;> simp
  · simp [prvDeviceRead, h]

theorem accel_readStatus_iff (values : AccelerometerValues) (instanceId id : Nat) :
    (accelRead C values true instanceId [⟨id, C.undefined⟩]).1 = .content205 ↔
      instanceId = 0 ∧ id ∈ accelResourceList := by
  rw [← accelReadItem_cases C values]
  cases instanceId with
  | zero =>
      simp only [accelRead, Nat.lt_irrefl, gt_iff_lt, if_false, true_and]
      apply readItems_single_status
      unfold accelReadItem
      dsimp only
      split <;> simp
  | succ n => simp [accelRead]

variable [KeyedList ServerInstance.instanceId]

/-- The status of a read of one resource. -/
def readStatus (instanceId resourceId : Nat) : LightObject → CoapStatus
  | .server instances => (readResource C instances instanceId resourceId).1
  | .device time => (prvDeviceRead C time true instanceId [⟨resourceId, C.undefined⟩]).1
  | .accelerometer values =>
      (accelRead C values true instanceId [⟨resourceId, C.undefined⟩]).1

/-- Does the execute function perform the resource, for an instance that exists?  The
accelerometer has none. -/
def executable (resourceId : Nat) : LightObject → Bool
  | .server _ => prvServerExecute getServerObject 0 resourceId == .changed204
  | .device _ => prvDeviceExecute 0 resourceId 0 == .changed204
  | .accelerometer _ => false

/-- The resource is answered by the read function or is executable. -/
def Answered (object : LightObject) (instanceId resourceId : Nat) : Prop :=
  object.readStatus C instanceId resourceId = .content205 ∨ object.executable resourceId = true

/-- Discover and read agree on a list of ids: for a nonempty one, discover succeeds
precisely if every id is answered; for the empty one, the ids a successful discover reports
are the answered ones. -/
def Agrees (allocated : Bool) (object : LightObject) (instanceId : Nat) (ids : List Nat) :
    Prop :=
  if ids = [] then
    ∀ reported, object.discover allocated instanceId [] = (.content205, reported) →
      ∀ id, id ∈ reported ↔ object.Answered C instanceId id
  else
    (object.discover allocated instanceId ids).1 = .content205 ↔
      ∀ id ∈ ids, object.Answered C instanceId id

/-! ## The tables -/

/-- A resource that only one of the two functions stands for. -/
def Gap (instanceId id : Nat) : LightObject → Prop
  | .server instances =>
      id ∈ [serverMinPeriodId, serverMaxPeriodId, serverTimeoutId] ∨
        (findInstance instanceId instances = none ∧ id ∈ serverReadList)
  | .device _ => id = resReboot
  | .accelerometer _ => instanceId ≠ 0 ∧ id ∈ accelResourceList

/-- A resource that neither of the two functions stands for. -/
def Foreign (instanceId id : Nat) : LightObject → Prop
  | .server _ => id ∉ serverDiscoverList
  | .device _ => id ≠ resReboot ∧ ¬(instanceId = 0 ∧ id ∈ deviceResourceList)
  | .accelerometer _ => id ∉ accelResourceList

/-- The instances for which the ids reported for the empty list are the answered ones. -/
def ReportsAnswered (instanceId : Nat) : LightObject → Prop
  | .server _ => False
  | .device _ => instanceId ≠ 0
  | .accelerometer _ => instanceId = 0

/-- The ids that are answered in an instance, in the terms of the tables. -/
def AnsweredIds (instanceId id : Nat) : LightObject → Prop
  | .server instances =>
      (findInstance instanceId instances ≠ none ∧ id ∈ serverReadList) ∨
        id ∈ [serverDisableId, serverUpdateId]
  | .device _ => (instanceId = 0 ∧ id ∈ deviceResourceList) ∨ id = resReboot
  | .accelerometer _ => instanceId = 0 ∧ id ∈ accelResourceList

theorem server_readStatus_iff (instances : List ServerInstance) (instanceId id : Nat) :
    (readResource C instances instanceId id).1 = .content205 ↔
      findInstance instanceId instances ≠ none ∧ id ∈ serverReadList := by
  cases hfound : findInstance instanceId instances with
  | none => simp [readResource, prvServerRead, hfound]
  | some target =>
      rw [readResource_of_some C hfound, ← resourceValue_ok_iff C target]
      cases hvalue : resourceValue C target id with
      | ok value => simp
      | error status =>
          have herror := resourceValue_error C hvalue
          refine iff_of_false ?_ (by simp)
          rintro rfl
          cases herror

theorem answered_iff (object : LightObject) (instanceId id : Nat) :
    object.Answered C instanceId id ↔ object.AnsweredIds instanceId id := by
  cases object with
  | server instances =>
      have hstatus : prvServerExecute getServerObject 0 id = serverExecuteStatus id := by
        rw [prvServerExecute, findInstance_getServerObject]
      have hexecute : (prvServerExecute getServerObject 0 id == .changed204) = true ↔
          id ∈ [serverDisableId, serverUpdateId] := by
        rw [hstatus]
        unfold serverExecuteStatus
        split <;> simp_all
      exact or_congr (server_readStatus_iff C instances instanceId id) hexecute
  | device time =>
      have hexecute : (prvDeviceExecute 0 id 0 == .changed204) = true ↔ id = resReboot := by
        by_cases h : id = resReboot <;> simp [prvDeviceExecute, h]
      exact or_congr (device_readStatus_iff C time instanceId id) hexecute
  | accelerometer values =>
      have hread := accel_readStatus_iff C values instanceId id
      simp only [Answered, readStatus, executable, Bool.false_eq_true, or_false, AnsweredIds]
      exact hread

/-! ## Comparing the tables -/

/-- The Server object discovers what it answers. -/
theorem server_discovers_answered {instances : List ServerInstance} {instanceId id : Nat}
    (h : (LightObject.server instances).AnsweredIds instanceId id) :
    (LightObject.server instances).Discovered instanceId id := by
  have hread : ∀ id ∈ serverReadList, id ∈ serverDiscoverList := by decide
  have hexecute : ∀ id ∈ [serverDisableId, serverUpdateId], id ∈ serverDiscoverList := by
    decide
  exact h.elim (fun h => hread id h.2) (hexecute id)

/-- In each object one of the two tables contains the other. -/
theorem discovered_answered_nested (object : LightObject) (instanceId : Nat) :
    (∀ id, object.Discovered instanceId id → object.AnsweredIds instanceId id) ∨
      ∀ id, object.AnsweredIds instanceId id → object.Discovered instanceId id := by
  cases object with
  | server instances =>
      right
      intro id hid
      exact server_discovers_answered hid
  | device time =>
      left
      intro id hid
      exact .inl hid
  | accelerometer values =>
      right
      intro id hid
      exact hid.2

theorem foreign_iff (object : LightObject) (instanceId id : Nat) :
    object.Foreign instanceId id ↔
      ¬object.Discovered instanceId id ∧ ¬object.AnsweredIds instanceId id := by
  cases object with
  | server instances =>
      exact ⟨fun h => ⟨h, fun ha => h (server_discovers_answered ha)⟩, fun h => h.1⟩
  | device time =>
      constructor
      · intro h
        exact ⟨h.2, fun ha => ha.elim h.2 h.1⟩
      · intro h
        exact ⟨fun hid => h.2 (.inr hid), h.1⟩
  | accelerometer values => exact ⟨fun h => ⟨h, fun ha => h ha.2⟩, fun h => h.1⟩

theorem not_gap_iff (object : LightObject) (instanceId id : Nat) :
    ¬object.Gap instanceId id ↔
      (object.Discovered instanceId id ↔ object.AnsweredIds instanceId id) := by
  cases object with
  | server instances =>
      simp only [Gap, Discovered, AnsweredIds, serverReadList, serverDiscoverList,
        serverShortIdId, serverLifetimeId, serverMinPeriodId, serverMaxPeriodId,
        serverDisableId, serverTimeoutId, serverStoringId, serverBindingId, serverUpdateId,
        List.mem_cons, List.not_mem_nil, or_false]
      by_cases h : findInstance instanceId instances = none
      · simp only [h, ne_eq, not_true_eq_false, false_and, true_and, false_or]
        omega
      · simp only [h, ne_eq, not_false_eq_true, true_and, false_and, or_false]
        omega
  | device time =>
      have hreboot : resReboot ∉ deviceResourceList := by decide
      constructor
      · intro hne
        exact ⟨.inl, fun ha => ha.resolve_right hne⟩
      · rintro hiff rfl
        exact hreboot (hiff.mpr (.inr rfl)).2
  | accelerometer values =>
      constructor
      · intro hne
        exact ⟨fun hid => ⟨Decidable.of_not_not fun hi => hne ⟨hi, hid⟩, hid⟩, fun ha => ha.2⟩
      · rintro hiff ⟨hi, hid⟩
        exact hi (hiff.mp hid).1

/-- What the discover functions report for the empty list. -/
theorem agrees_nil_iff (allocated : Bool) (object : LightObject) (instanceId : Nat) :
    object.Agrees C allocated instanceId [] ↔
      allocated = false ∨ object.ReportsAnswered instanceId := by
  simp only [Agrees, if_true]
  cases allocated with
  | false =>
      refine iff_of_true ?_ (.inl rfl)
      intro reported h
      cases object with
      | server instances => cases h
      | accelerometer values => cases h
      | device time =>
          simp only [discover, prvDeviceDiscover] at h
          split at h <;> cases h
  | true =>
      simp only [Bool.true_eq_false, false_or, answered_iff]
      cases object with
      | server instances =>
          refine iff_of_false ?_ id
          intro h
          have hanswered := (h serverDiscoverList rfl serverMinPeriodId).mp (by decide)
          simp [AnsweredIds, serverReadList] at hanswered
      | accelerometer values =>
          constructor
          · intro h
            exact ((h accelResourceList rfl accelXValue).mp (by decide)).1
          · rintro hzero reported hreported id
            obtain rfl := (Prod.mk.inj hreported).2
            exact ⟨fun hid => ⟨hzero, hid⟩, fun hid => hid.2⟩
      | device time =>
          constructor
          · rintro h rfl
            have hreported := (h deviceResourceList rfl resReboot).mpr (.inr rfl)
            exact absurd hreported (by decide)
          · intro hne reported h
            have hnone : (LightObject.device time).discover true instanceId [] =
                (.notFound404, []) := if_pos hne
            rw [hnone] at h
            cases h

/-- For every instance id and every list of ids, discover and read agree precisely in these
cases.  For a nonempty list: it has an id neither of them stands for, or none that only one
of them stands for.  For the empty list: the array could not be allocated, or the instance
is one for which the reported ids are the answered ones. -/
theorem discover_agrees_iff (allocated : Bool) (object : LightObject) (instanceId : Nat)
    (ids : List Nat) :
    object.Agrees C allocated instanceId ids ↔
      if ids = [] then allocated = false ∨ object.ReportsAnswered instanceId
      else
        (∃ id ∈ ids, object.Foreign instanceId id) ∨
          ∀ id ∈ ids, ¬object.Gap instanceId id := by
  by_cases hids : ids = []
  · rw [if_pos hids, hids, agrees_nil_iff]
  · rw [if_neg hids, Agrees, if_neg hids, discover_content_iff allocated object instanceId hids]
    simp only [answered_iff, foreign_iff, not_gap_iff]
    exact forall_iff_forall_iff (discovered_answered_nested object instanceId) ids

end LightObject

attribute [local instance] KeyedList.ordered

/-- The Server object discovers the minimum period, which it cannot read. -/
theorem LightObject.discover_knows_unreadable :
    ¬ ∀ (object : LightObject) (instanceId : Nat) (ids : List Nat),
      object.Agrees valueCodec true instanceId ids := by
  intro h
  have hagrees := h (.server getServerObject) 0 [serverMinPeriodId]
  have hanswered := hagrees.mp rfl serverMinPeriodId List.mem_cons_self
  exact hanswered.elim (by decide) (by decide)

end Uiso.Lwm2m
