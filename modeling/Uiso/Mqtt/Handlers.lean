/-
  Mqtt/Handlers.lean --- the message handlers of the MQTT client:
  `MQTTSetMessageHandler`, `MQTTCleanSession` and `deliverMessage` of
  src/mqtt/MQTTClient.c.

  The handlers are an array of slots.  A slot without a topic filter is free, whatever
  function pointer it still holds.  What the array is for is a finite map from topic
  filters to handlers with room for `MAX_MESSAGE_HANDLERS` of them:

      Registry           : the finite map, with the operations on it
      MessageHandlers    : the array, with the operations of the source

  `MessageHandlers.Holds` relates the two; every operation keeps it and returns the same
  on both sides.
-/
import Uiso.Foundation.SlotTable
import Uiso.Mqtt.Sending
import Uiso.Mqtt.Topic

set_option autoImplicit false

namespace Uiso.Mqtt

open Uiso.Foundation

variable {H : Type}

/-! ## The functions -/

/-- `MAX_MESSAGE_HANDLERS` -/
def maxMessageHandlers : Nat := 5

/-- An element of `messageHandlers`. -/
structure Slot (H : Type) where
  topicFilter : Option (List UInt8)
  fp : Option H
  deriving DecidableEq, Repr

/-- `messageHandlers` -/
structure MessageHandlers (H : Type) where
  slots : List (Slot H)
  size : slots.length = maxMessageHandlers

/-- An assignment to one element. -/
def MessageHandlers.put (t : MessageHandlers H) (i : Nat) (s : Slot H) : MessageHandlers H :=
  ⟨t.slots.set i s, by rw [List.length_set, t.size]⟩

/-- `MQTTCleanSession`; `MQTTClientInit` does the same to the array. -/
def MessageHandlers.clean (t : MessageHandlers H) : MessageHandlers H :=
  ⟨t.slots.map fun s => { s with topicFilter := none }, by rw [List.length_map, t.size]⟩

/-- `MQTTSetMessageHandler` -/
def mqttSetMessageHandler (t : MessageHandlers H) (topicFilter : List UInt8)
    (messageHandler : Option H) : Int × MessageHandlers H :=
  match t.slots.findIdx? (·.topicFilter = some topicFilter), messageHandler with
  | some i, none => (success, t.put i ⟨none, none⟩)
  | some i, some h => (success, t.put i ⟨some topicFilter, some h⟩)
  | none, none => (failure, t)
  | none, some h =>
      match t.slots.findIdx? (·.topicFilter = none) with
      | some i => (success, t.put i ⟨some topicFilter, some h⟩)
      | none => (failure, t)

/-- The handler of a slot, if `deliverMessage` calls it. -/
def Slot.called (topicName : List UInt8) (s : Slot H) : Option H :=
  match s.topicFilter with
  | some f => if selects topicName f then s.fp else none
  | none => none

/-- `deliverMessage`: its result, and the handlers it calls, in their order. -/
def deliverMessage (t : MessageHandlers H) (defaultMessageHandler : Option H)
    (topicName : List UInt8) : Int × List H :=
  let called := t.slots.filterMap (Slot.called topicName)
  if called = [] then
    match defaultMessageHandler with
    | some h => (success, [h])
    | none => (failure, [])
  else (success, called)

/-! ## What the array is for -/

/-- The handlers that are set, each under its topic filter. -/
abbrev Registry (H : Type) := Finmap fun _ : List UInt8 => H

/-- The operations on the handlers. -/
inductive TableOp (H : Type) where
  | set (topicFilter : List UInt8) (messageHandler : Option H)
  | clean

/-- A handler is set if its filter has one already or there is room for another filter; a
filter is removed if it is there. -/
def Registry.apply (m : Registry H) : TableOp H → List Int × Registry H
  | .set f (some h) =>
      if f ∈ m ∨ m.keys.card < maxMessageHandlers then ([success], m.insert f h)
      else ([failure], m)
  | .set f none => if f ∈ m then ([success], m.erase f) else ([failure], m)
  | .clean => ([], ∅)

/-- The operations of the source; `MQTTCleanSession` has no result. -/
def MessageHandlers.apply (t : MessageHandlers H) : TableOp H → List Int × MessageHandlers H
  | .set f h =>
      let r := mqttSetMessageHandler t f h
      ([r.1], r.2)
  | .clean => ([], t.clean)

/-- Operations one after the other, with their results. -/
def Registry.run (m : Registry H) : List (TableOp H) → List Int × Registry H
  | [] => ([], m)
  | op :: ops =>
      let r := m.apply op
      let rest := r.2.run ops
      (r.1 ++ rest.1, rest.2)

@[inherit_doc Registry.run]
def MessageHandlers.run (t : MessageHandlers H) : List (TableOp H) → List Int × MessageHandlers H
  | [] => ([], t)
  | op :: ops =>
      let r := t.apply op
      let rest := r.2.run ops
      (r.1 ++ rest.1, rest.2)

/-- What a slot holds. -/
def Slot.entry (s : Slot H) : Option (Σ _ : List UInt8, H) :=
  match s.topicFilter, s.fp with
  | some f, some h => some ⟨f, h⟩
  | _, _ => none

/-- The array holds the handlers, and no slot has a topic filter without one. -/
structure MessageHandlers.Holds (t : MessageHandlers H) (m : Registry H) : Prop where
  represents : SlotTable.Represents Slot.entry t.slots m
  complete : ∀ s ∈ t.slots, s.topicFilter ≠ none → s.entry ≠ none

/-! ## Slots -/

theorem Slot.entry_eq_some {s : Slot H} {f : List UInt8} {h : H} :
    s.entry = some ⟨f, h⟩ ↔ s.topicFilter = some f ∧ s.fp = some h := by
  obtain ⟨topicFilter, fp⟩ := s
  cases topicFilter with
  | none => simp [Slot.entry]
  | some g =>
      cases fp with
      | none => simp [Slot.entry]
      | some h' =>
          simp only [Slot.entry, Option.some.injEq, Sigma.mk.injEq]
          exact ⟨fun e => ⟨e.1, eq_of_heq e.2⟩, fun e => ⟨e.1, heq_of_eq e.2⟩⟩

theorem Slot.entry_of_free {s : Slot H} (h : s.topicFilter = none) : s.entry = none := by
  simp [Slot.entry, h]

namespace MessageHandlers.Holds

variable {t : MessageHandlers H} {m : Registry H}

/-- A slot with a topic filter holds a handler for it. -/
theorem entry_of_filter (h : t.Holds m) {s : Slot H} {f : List UInt8} (hs : s ∈ t.slots)
    (hf : s.topicFilter = some f) : ∃ u, s.entry = some ⟨f, u⟩ := by
  have hne := h.complete s hs (by rw [hf]; simp)
  obtain ⟨⟨g, u⟩, he⟩ := Option.ne_none_iff_exists'.mp hne
  obtain rfl : g = f := Option.some.inj ((Slot.entry_eq_some.mp he).1.symm.trans hf)
  exact ⟨u, he⟩

/-- The first loop finds a slot precisely if the filter has a handler. -/
theorem mem_iff (h : t.Holds m) {f : List UInt8} :
    f ∈ m ↔ ∃ s ∈ t.slots, s.topicFilter = some f := by
  rw [h.represents.mem_iff]
  constructor
  · rintro ⟨s, hs, u, he⟩
    exact ⟨s, hs, (Slot.entry_eq_some.mp he).1⟩
  · rintro ⟨s, hs, hf⟩
    exact ⟨s, hs, h.entry_of_filter hs hf⟩

/-- The second loop finds a slot precisely if there is room. -/
theorem card_lt_iff (h : t.Holds m) :
    m.keys.card < maxMessageHandlers ↔ ∃ s ∈ t.slots, s.topicFilter = none := by
  rw [h.represents.card_keys, ← t.size, SlotTable.entries,
    List.length_filterMap_lt_length_iff_exists]
  constructor
  · rintro ⟨s, hs, he⟩
    by_contra hno
    exact h.complete s hs (fun hfree => hno ⟨s, hs, hfree⟩) he
  · rintro ⟨s, hs, hfree⟩
    exact ⟨s, hs, Slot.entry_of_free hfree⟩

/-- An assignment leaves no topic filter without a handler if its slot does not. -/
theorem complete_put (h : t.Holds m) (i : Nat) {s : Slot H}
    (hs : s.topicFilter ≠ none → s.entry ≠ none) :
    ∀ s' ∈ (t.put i s).slots, s'.topicFilter ≠ none → s'.entry ≠ none := by
  intro s' hs'
  rcases List.mem_or_eq_of_mem_set hs' with hmem | rfl
  · exact h.complete s' hmem
  · exact hs

end MessageHandlers.Holds

/-- Where a loop over the array stops. -/
theorem getElem?_of_findIdx? {l : List (Slot H)} {p : Slot H → Bool} {i : Nat}
    (h : l.findIdx? p = some i) : ∃ s ∈ l, l[i]? = some s ∧ p s = true := by
  obtain ⟨hi, hp, -⟩ := List.findIdx?_eq_some_iff_getElem.mp h
  exact ⟨l[i], List.getElem_mem hi, List.getElem?_eq_getElem hi, hp⟩

/-! ## One operation -/

variable {t : MessageHandlers H} {m : Registry H}

/-- A handler is set, and replaces the one its filter had. -/
theorem holds_set_some (h : t.Holds m) (f : List UInt8) (v : H) :
    (t.apply (.set f (some v))).1 = (m.apply (.set f (some v))).1 ∧
      (t.apply (.set f (some v))).2.Holds (m.apply (.set f (some v))).2 := by
  have hnew : (⟨some f, some v⟩ : Slot H).entry = some ⟨f, v⟩ := rfl
  have hcomplete := fun i => h.complete_put i (s := ⟨some f, some v⟩) fun _ => by simp [hnew]
  cases hfind : t.slots.findIdx? (·.topicFilter = some f) with
  | some i =>
      obtain ⟨s, hs, hi, hp⟩ := getElem?_of_findIdx? hfind
      have hfilter : s.topicFilter = some f := of_decide_eq_true hp
      have hmem : f ∈ m := h.mem_iff.mpr ⟨s, hs, hfilter⟩
      obtain ⟨u, hslot⟩ := h.entry_of_filter hs hfilter
      simp only [MessageHandlers.apply, mqttSetMessageHandler, hfind, Registry.apply, hmem,
        true_or, if_true, true_and]
      exact ⟨h.represents.overwrite hi hslot hnew, hcomplete i⟩
  | none =>
      have hmem : f ∉ m := by
        rw [h.mem_iff]
        rintro ⟨s, hs, hf⟩
        have := List.findIdx?_eq_none_iff.mp hfind s hs
        exact of_decide_eq_false this hf
      cases hfree : t.slots.findIdx? (·.topicFilter = none) with
      | some i =>
          obtain ⟨s, hs, hi, hp⟩ := getElem?_of_findIdx? hfree
          have hslot : s.topicFilter = none := of_decide_eq_true hp
          have hroom := h.card_lt_iff.mpr ⟨s, hs, hslot⟩
          simp only [MessageHandlers.apply, mqttSetMessageHandler, hfind, hfree, Registry.apply,
            hroom, or_true, if_true, true_and]
          exact ⟨h.represents.fill hi (Slot.entry_of_free hslot) hnew hmem, hcomplete i⟩
      | none =>
          have hfull : ¬m.keys.card < maxMessageHandlers := by
            rw [h.card_lt_iff]
            rintro ⟨s, hs, hslot⟩
            have := List.findIdx?_eq_none_iff.mp hfree s hs
            exact of_decide_eq_false this hslot
          simp only [MessageHandlers.apply, mqttSetMessageHandler, hfind, hfree, Registry.apply,
            hmem, hfull, or_self, if_false, true_and]
          exact h

/-- A filter is removed. -/
theorem holds_set_none (h : t.Holds m) (f : List UInt8) :
    (t.apply (.set f none)).1 = (m.apply (.set f none)).1 ∧
      (t.apply (.set f none)).2.Holds (m.apply (.set f none)).2 := by
  have hnew : (⟨none, none⟩ : Slot H).entry = none := rfl
  cases hfind : t.slots.findIdx? (·.topicFilter = some f) with
  | some i =>
      obtain ⟨s, hs, hi, hp⟩ := getElem?_of_findIdx? hfind
      have hfilter : s.topicFilter = some f := of_decide_eq_true hp
      have hmem : f ∈ m := h.mem_iff.mpr ⟨s, hs, hfilter⟩
      obtain ⟨u, hslot⟩ := h.entry_of_filter hs hfilter
      simp only [MessageHandlers.apply, mqttSetMessageHandler, hfind, Registry.apply, hmem,
        if_true, true_and]
      exact ⟨h.represents.free hi hslot hnew, h.complete_put i fun hne => absurd rfl hne⟩
  | none =>
      have hmem : f ∉ m := by
        rw [h.mem_iff]
        rintro ⟨s, hs, hf⟩
        have := List.findIdx?_eq_none_iff.mp hfind s hs
        exact of_decide_eq_false this hf
      simp only [MessageHandlers.apply, mqttSetMessageHandler, hfind, Registry.apply, hmem,
        if_false, true_and]
      exact h

/-- After `MQTTCleanSession` and `MQTTClientInit` there are no handlers, whatever the array
held. -/
theorem holds_clean (t : MessageHandlers H) : t.clean.Holds ∅ := by
  have hfree : ∀ s ∈ t.clean.slots, s.topicFilter = none := by
    intro s hs
    obtain ⟨s', -, rfl⟩ := List.mem_map.mp hs
    rfl
  constructor
  · exact SlotTable.represents_nil_iff.mpr fun s hs => Slot.entry_of_free (hfree s hs)
  · exact fun s hs hne => absurd (hfree s hs) hne

/-- One operation on the array is the operation on the handlers. -/
theorem holds_apply (h : t.Holds m) (op : TableOp H) :
    (t.apply op).1 = (m.apply op).1 ∧ (t.apply op).2.Holds (m.apply op).2 := by
  cases op with
  | set f handler =>
      cases handler with
      | none => exact holds_set_none h f
      | some v => exact holds_set_some h f v
  | clean => exact ⟨rfl, holds_clean t⟩

/-- Any number of operations. -/
theorem holds_run (h : t.Holds m) (ops : List (TableOp H)) :
    (t.run ops).1 = (m.run ops).1 ∧ (t.run ops).2.Holds (m.run ops).2 := by
  induction ops generalizing t m with
  | nil => exact ⟨rfl, h⟩
  | cons op ops ih =>
      obtain ⟨hresults, hnext⟩ := holds_apply h op
      obtain ⟨hrest, hlast⟩ := ih hnext
      exact ⟨by rw [MessageHandlers.run, Registry.run, hresults, hrest], hlast⟩

/-! ## Delivery -/

/-- The handlers of the filters that select a topic. -/
def Registry.selected (m : Registry H) (topicName : List UInt8) : Multiset H :=
  (m.entries.filter fun e => selects topicName e.1).map fun e => e.2

/-- The handlers that the loop of `deliverMessage` calls. -/
theorem called_eq_selected (h : t.Holds m) (topicName : List UInt8) :
    (t.slots.filterMap (Slot.called topicName) : Multiset H) = m.selected topicName := by
  have hcalled : ∀ s : Slot H, Slot.called topicName s =
      (s.entry.filter fun e => selects topicName e.1).map fun e => e.2 := by
    rintro ⟨topicFilter, fp⟩
    cases topicFilter with
    | none => rfl
    | some f =>
        cases fp with
        | none => simp [Slot.called, Slot.entry]
        | some v => by_cases hsel : selects topicName f <;>
            simp [Slot.called, Slot.entry, hsel, Option.filter]
  have hlist : t.slots.filterMap (Slot.called topicName) =
      ((t.slots.filterMap Slot.entry).filter fun e => selects topicName e.1).map fun e => e.2 := by
    rw [List.filter_filterMap, List.map_filterMap]
    exact congrArg (fun g => t.slots.filterMap g) (funext hcalled)
  rw [hlist, Registry.selected, h.represents, Multiset.filter_coe, Multiset.map_coe]
  simp [SlotTable.entries]

/-- A message goes to the handlers of the filters that select its topic, each of them once,
and to the default handler if there are none. -/
structure Delivered (m : Registry H) (defaultMessageHandler : Option H) (topicName : List UInt8)
    (r : Int × List H) : Prop where
  selected : m.selected topicName ≠ 0 → r.1 = success ∧ (r.2 : Multiset H) = m.selected topicName
  fallback : m.selected topicName = 0 → r.2 = defaultMessageHandler.toList ∧
    (r.1 = success ↔ defaultMessageHandler ≠ none)

theorem delivered_deliverMessage (h : t.Holds m) (defaultMessageHandler : Option H)
    (topicName : List UInt8) : Delivered m defaultMessageHandler topicName
      (deliverMessage t defaultMessageHandler topicName) := by
  have hcalled := called_eq_selected h topicName
  have hnil : t.slots.filterMap (Slot.called topicName) = [] ↔ m.selected topicName = 0 := by
    rw [← hcalled, Multiset.coe_eq_zero]
  constructor
  · intro hsome
    simp only [deliverMessage, if_neg (mt hnil.mp hsome)]
    exact ⟨trivial, hcalled⟩
  · intro hzero
    simp only [deliverMessage, if_pos (hnil.mpr hzero)]
    cases defaultMessageHandler <;> simp [success, failure]

/-! ## Whole histories -/

/-- From `MQTTClientInit` on, the array is a finite map of bounded size: every call of
`MQTTSetMessageHandler` and `MQTTCleanSession` returns what the operation on the map does,
and leaves the array holding the map after it. -/
theorem messageHandlers_refine_registry (memory : MessageHandlers H) (ops : List (TableOp H)) :
    (memory.clean.run ops).1 = (Registry.run ∅ ops).1 ∧
      (memory.clean.run ops).2.Holds (Registry.run ∅ ops).2 :=
  holds_run (holds_clean memory) ops

/-- After any history, a message is delivered according to the handlers that are set. -/
theorem deliverMessage_after_run (memory : MessageHandlers H) (ops : List (TableOp H))
    (defaultMessageHandler : Option H) (topicName : List UInt8) :
    Delivered (Registry.run ∅ ops).2 defaultMessageHandler topicName
      (deliverMessage (memory.clean.run ops).2 defaultMessageHandler topicName) :=
  delivered_deliverMessage (holds_run (holds_clean memory) ops).2 defaultMessageHandler topicName

end Uiso.Mqtt
