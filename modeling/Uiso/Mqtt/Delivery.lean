/-
  Mqtt/Delivery.lean --- from the connection to the message handlers: `cycle` of
  src/mqtt/MQTTClient.c with the Paho library below it and `deliverMessage` above.

  `cycleEnv` fills in what `Cycle` leaves open: what the deserialisers make of the packet
  that was read, and the acknowledgement and the ping that the serialisers put into the
  send buffer.  The calls of `sl_Send` and the timers are given for each round, in a
  `CycleIo`.

      Subscriber     : the client, and the function pointers of its message handlers
      received       : the message that a round hands to `deliverMessage`
      rounds         : rounds of `cycle`, and the handlers they call
      Inbound        : the packets that `cycle` knows, with the answer to each

  `rounds_of_inbound` says that messages come through, each of them once and in their order,
  and that all packets are answered.
-/
import Uiso.Mqtt.Handlers
import Uiso.Mqtt.Publication

set_option autoImplicit false

namespace Uiso.Mqtt

open Uiso.Foundation

variable {cap : Nat} {H : Type}

/-! ## A round with the Paho library -/

/-- What a round of `cycle` meets outside the client. -/
structure CycleIo where
  /-- `c->buf_size` -/
  bufSize : Nat
  /-- the send buffer and what lies behind it -/
  mem : Nat → UInt8
  /-- what a packet identifier holds that was not set -/
  unset : Nat
  /-- the bytes of a topic whose address was not set -/
  unsetTopic : List UInt8
  /-- the rounds of `sendPacket` for an acknowledgement -/
  sends : (length : Nat) → Nat → Round length
  /-- the rounds of `sendPacket` for a ping -/
  pings : (length : Nat) → Nat → Round length
  lastSentExpired : Bool
  lastReceivedExpired : Bool

/-- A packet that a serialiser has put into the send buffer. -/
def CycleIo.transmission (io : CycleIo) (rounds : (length : Nat) → Nat → Round length)
    (r : Int × List UInt8) : Transmission where
  len := r.1
  buf := fun i => (r.2[i]?).getD (io.mem i)
  rounds := rounds r.1.toNat

/-- What `cycle` meets when the read buffer is `readbuf`. -/
def cycleEnv (io : CycleIo) (readbuf : Buffer cap) : CycleEnv where
  publishRead := (mqttDeserializePublish readbuf.byte).rc = 1
  ackRead := (mqttDeserializeAck readbuf.byte).1 = 1
  ack := fun packettype =>
    -- A publication is answered with its own identifier, `PUBREC` and `PUBREL` with theirs.
    let id := if packettype = MsgType.puback ∨ packettype = MsgType.pubrec then
        (mqttDeserializePublish readbuf.byte).packetid
      else (mqttDeserializeAck readbuf.byte).2
    io.transmission io.sends
      (mqttSerializeAck io.bufSize packettype.toNat false (id.getD io.unset))
  pingreq := io.transmission io.pings (mqttSerializeZero io.bufSize 12)
  lastSentExpired := io.lastSentExpired
  lastReceivedExpired := io.lastReceivedExpired

/-- `cycle` -/
def pahoCycle (cuts : Nat → Int) (io : CycleIo) (c : MqttClient cap) : Int × MqttClient cap :=
  cycle cuts (cycleEnv io (readPacket cuts c.toClient).2.readbuf) c

/-! ## What a round does to the session -/

/-- The session is as it was. -/
structure SessionKept (c c' : MqttClient cap) : Prop where
  isconnected : c'.isconnected = c.isconnected
  cleansession : c'.cleansession = c.cleansession
  keepAliveInterval : c'.keepAliveInterval = c.keepAliveInterval
  topicFilters : c'.topicFilters = c.topicFilters

theorem SessionKept.refl (c : MqttClient cap) : SessionKept c c := ⟨rfl, rfl, rfl, rfl⟩

theorem SessionKept.trans {c c' c'' : MqttClient cap} (h : SessionKept c c')
    (h' : SessionKept c' c'') : SessionKept c c'' :=
  ⟨h'.isconnected.trans h.isconnected, h'.cleansession.trans h.cleansession,
    h'.keepAliveInterval.trans h.keepAliveInterval, h'.topicFilters.trans h.topicFilters⟩

theorem sessionKept_write (c : MqttClient cap) (bytes : List UInt8) :
    SessionKept c (c.write bytes) := ⟨rfl, rfl, rfl, rfl⟩

/-- `sendPacket` succeeds or fails. -/
theorem sendPacket_rc (mem : Nat → UInt8) {length : Nat} (rounds : Nat → Round length) :
    (sendPacket mem rounds).1 = success ∨ (sendPacket mem rounds).1 = failure := by
  rw [sendPacket]
  simp only
  split
  · exact .inl rfl
  · exact .inr rfl

theorem sessionKept_keepalive (env : CycleEnv) (c : MqttClient cap) :
    SessionKept c (keepalive env c).2 := by
  unfold keepalive
  split
  · exact .refl c
  · split
    · split
      · exact .refl c
      · split
        · simp only
          split
          · exact ⟨rfl, rfl, rfl, rfl⟩
          · exact sessionKept_write c _
        · exact .refl c
    · exact .refl c

theorem keepalive_rc (env : CycleEnv) (c : MqttClient cap) :
    (keepalive env c).1 = success ∨ (keepalive env c).1 = failure := by
  unfold keepalive
  split
  · exact .inl rfl
  · split
    · split
      · exact .inr rfl
      · split
        · simp only
          split
          · exact .inl rfl
          · exact sendPacket_rc _ _
        · exact .inl rfl
    · exact .inl rfl

/-- Behind its `switch`, `cycle` has `SUCCESS`, or it goes to `exit` with `FAILURE`.  It goes to
`exit` with `SUCCESS` if it cannot read a publication.  Only a `PINGRESP` changes
`ping_outstanding`. -/
structure Handled.Known (env : CycleEnv) (packetType : Int) (h : Handled cap) (c : MqttClient cap) :
    Prop where
  kept : SessionKept c h.client
  rc : h.rc = success ∨ h.rc = failure ∧ h.exit = true
  leaves : h.exit = true → h.rc = success → packetType = MsgType.publish ∧ env.publishRead = false
  ping : packetType ≠ MsgType.pingresp → h.client.pingOutstanding = c.pingOutstanding

/-- The cases that do nothing. -/
theorem known_of_break (env : CycleEnv) (packetType : Int) (c : MqttClient cap) :
    Handled.Known env packetType ⟨success, false, c⟩ c :=
  ⟨.refl c, .inl rfl, nofun, fun _ => rfl⟩

/-- The cases that fail. -/
theorem known_of_failure (env : CycleEnv) (packetType : Int) (c : MqttClient cap)
    (bytes : List UInt8) : Handled.Known env packetType ⟨failure, true, c.write bytes⟩ c :=
  ⟨sessionKept_write c bytes, .inr ⟨rfl, rfl⟩,
    fun _ hrc => absurd hrc (show failure ≠ success by decide), fun _ => rfl⟩

theorem known_handlePublish (env : CycleEnv) (c : MqttClient cap) :
    (handlePublish env c).Known env MsgType.publish c := by
  have hwrite : ∀ c : MqttClient cap, c.write [] = c := fun c => by simp [MqttClient.write]
  unfold handlePublish
  simp only
  generalize env.ack (if headerQos (c.readbuf.byte 0) = 1 then MsgType.puback
    else MsgType.pubrec) = t
  generalize (if headerQos (c.readbuf.byte 0) = 1 ∨ headerQos (c.readbuf.byte 0) = 2 then t.len
    else 0) = len
  split
  · rename_i hunread
    exact ⟨.refl c, .inl rfl, fun _ _ => ⟨rfl, hunread⟩, fun _ => rfl⟩
  · split
    · exact known_of_break env _ c
    · split
      · have hfailed := known_of_failure env MsgType.publish c []
        rwa [hwrite] at hfailed
      · rcases sendPacket_rc t.buf t.rounds with hsent | hsent
        · simp only [Transmission.send, hsent]
          exact ⟨sessionKept_write c _, .inl rfl, nofun, fun _ => rfl⟩
        · simp only [Transmission.send, hsent]
          exact known_of_failure env _ c _

theorem known_handleAck (env : CycleEnv) (packetType : Int) (c : MqttClient cap) :
    (handleAck env packetType c).Known env packetType c := by
  have hwrite : ∀ c : MqttClient cap, c.write [] = c := fun c => by simp [MqttClient.write]
  have hfailed := known_of_failure env packetType c []
  rw [hwrite] at hfailed
  unfold handleAck
  simp only
  generalize env.ack (if packetType = MsgType.pubrec then MsgType.pubrel
    else MsgType.pubcomp) = t
  split
  · exact hfailed
  · split
    · exact hfailed
    · split
      · exact known_of_failure env packetType c _
      · exact ⟨sessionKept_write c _, .inl rfl, nofun, fun _ => rfl⟩

/-- The results of `readPacket` that `cycle` has a case for. -/
def Expected (packetType : Int) : Prop :=
  packetType ∈ [0, MsgType.connack, MsgType.puback, MsgType.suback, MsgType.publish,
    MsgType.pubrec, MsgType.pubrel, MsgType.pubcomp, MsgType.pingresp]

instance (packetType : Int) : Decidable (Expected packetType) :=
  inferInstanceAs (Decidable (packetType ∈ _))

theorem known_handlePacket (env : CycleEnv) {packetType : Int} (h : Expected packetType)
    (c : MqttClient cap) : (handlePacket env packetType c).Known env packetType c := by
  simp only [Expected, List.mem_cons, List.not_mem_nil, or_false] at h
  rcases h with rfl | rfl | rfl | rfl | rfl | rfl | rfl | rfl | rfl
  · exact known_of_break env _ c
  · exact known_of_break env _ c
  · exact known_of_break env _ c
  · exact known_of_break env _ c
  · exact known_handlePublish env c
  · exact known_handleAck env _ c
  · exact known_handleAck env _ c
  · exact known_of_break env _ c
  · exact ⟨⟨rfl, rfl, rfl, rfl⟩, .inl rfl, nofun, fun hping => absurd rfl hping⟩

theorem handlePacket_of_not_expected (env : CycleEnv) {packetType : Int}
    (h : ¬Expected packetType) (c : MqttClient cap) :
    handlePacket env packetType c = ⟨packetType, true, c⟩ := by
  simp only [Expected, List.mem_cons, List.not_mem_nil, or_false, not_or] at h
  obtain ⟨h0, hconnack, hpuback, hsuback, hpublish, hpubrec, hpubrel, hpubcomp, hpingresp⟩ := h
  simp [handlePacket, *]

/-- The session is closed if it was open. -/
def exitSession (c : MqttClient cap) : MqttClient cap :=
  if c.isconnected then mqttCloseSession c else c

theorem finishCycle_eq (env : CycleEnv) (packetType : Int) (h : Handled cap) :
    finishCycle env packetType h =
      let checked := if h.exit then (h.rc, h.client)
        else (if (keepalive env h.client).1 ≠ success then failure else h.rc,
          (keepalive env h.client).2)
      if checked.1 = success then (packetType, checked.2)
      else (checked.1, exitSession checked.2) := by
  rw [finishCycle]
  generalize (if h.exit then (h.rc, h.client) else _ : Int × MqttClient cap) = checked
  simp only [exitSession]
  split
  · rfl
  · split <;> rfl

/-- What a round may do: it returns the type of the packet and leaves the session as it was;
or it fails; or it returns the type of a packet that it has no case for.  In the last two
cases the session is closed. -/
inductive CycleCases (packetType : Int) (c : MqttClient cap) : Int × MqttClient cap → Prop
  | known {c' : MqttClient cap} (expected : Expected packetType) (kept : SessionKept c c') :
      CycleCases packetType c (packetType, c')
  | failed {c' : MqttClient cap} (expected : Expected packetType) (kept : SessionKept c c') :
      CycleCases packetType c (failure, exitSession c')
  | unknown {c' : MqttClient cap} (unexpected : ¬Expected packetType) (kept : SessionKept c c') :
      CycleCases packetType c (packetType, exitSession c')

theorem cycle_cases (cuts : Nat → Int) (env : CycleEnv) (c : MqttClient cap) :
    CycleCases (readPacket cuts c.toClient).1 c (cycle cuts env c) := by
  have hread : SessionKept c { c with toClient := (readPacket cuts c.toClient).2 } :=
    ⟨rfl, rfl, rfl, rfl⟩
  rw [cycle]
  generalize readPacket cuts c.toClient = read at hread ⊢
  by_cases hexpected : Expected read.1
  · have hknown := known_handlePacket env hexpected { c with toClient := read.2 }
    generalize handlePacket env read.1 _ = h at hknown ⊢
    have hkept := hread.trans hknown.kept
    rw [finishCycle_eq]
    rcases hknown.rc with hrc | ⟨hrc, hexit⟩
    · have hkeep := hkept.trans (sessionKept_keepalive env h.client)
      cases hexit : h.exit with
      | true =>
          simp only [hrc, if_true]
          exact .known hexpected hkept
      | false =>
          rcases keepalive_rc env h.client with halive | halive
          · simp only [hrc, halive]
            exact .known hexpected hkeep
          · simp only [halive]
            exact .failed hexpected hkeep
    · simp only [hexit, hrc, if_true]
      exact .failed hexpected hkept
  · have hrc : read.1 ≠ success := fun hzero => hexpected (hzero ▸ by decide)
    rw [handlePacket_of_not_expected env hexpected, finishCycle_eq]
    simp only [hrc, if_true, if_false]
    exact .unknown hexpected hread

theorem exitSession_topicFilters (c : MqttClient cap) :
    (exitSession c).topicFilters = c.topicFilters ∨
      (exitSession c).topicFilters = c.topicFilters.map fun _ => none := by
  unfold exitSession mqttCloseSession
  simp only
  split
  · split
    · exact .inr rfl
    · exact .inl rfl
  · exact .inl rfl

theorem cycle_topicFilters (cuts : Nat → Int) (env : CycleEnv) (c : MqttClient cap) :
    (cycle cuts env c).2.topicFilters = c.topicFilters ∨
      (cycle cuts env c).2.topicFilters = c.topicFilters.map fun _ => none := by
  have hcases := cycle_cases cuts env c
  generalize cycle cuts env c = r at hcases ⊢
  cases hcases with
  | known expected kept => exact .inl kept.topicFilters
  | failed expected kept => rw [← kept.topicFilters]; exact exitSession_topicFilters _
  | unknown unexpected kept => rw [← kept.topicFilters]; exact exitSession_topicFilters _

/-! ## The client and its handlers -/

/-- The client, and the function pointers of its message handlers. -/
structure Subscriber (cap : Nat) (H : Type) where
  client : MqttClient cap
  fps : List (Option H)
  filters_size : client.topicFilters.length = maxMessageHandlers
  fps_size : fps.length = maxMessageHandlers

namespace Subscriber

/-- `messageHandlers` -/
def handlers (s : Subscriber cap H) : MessageHandlers H where
  slots := List.zipWith Slot.mk s.client.topicFilters s.fps
  size := by rw [List.length_zipWith, s.filters_size, s.fps_size, Nat.min_self]

/-- `cycle` -/
def cycle (cuts : Nat → Int) (io : CycleIo) (s : Subscriber cap H) : Subscriber cap H where
  client := (pahoCycle cuts io s.client).2
  fps := s.fps
  filters_size := by
    rw [pahoCycle]
    rcases cycle_topicFilters cuts (cycleEnv io (readPacket cuts s.client.toClient).2.readbuf)
      s.client with h | h
    · rw [h, s.filters_size]
    · rw [h, List.length_map, s.filters_size]
  fps_size := s.fps_size

end Subscriber

/-- A message as the handlers get it; without a payload if the length of that is negative. -/
structure Message where
  topicName : List UInt8
  payload : Option (List UInt8)
  dup : Bool
  qos : Nat
  retained : Bool
  id : Option Nat
  deriving DecidableEq, Repr

/-- The message that `cycle` hands to `deliverMessage` if `MQTTDeserialize_publish` returns 1.
It does so also for a packet whose topic it has not read: the topic is not set then, and the
length of the payload is still 0. -/
def received (io : CycleIo) (mem : Nat → UInt8) : Option Message :=
  let d := mqttDeserializePublish mem
  match d.dup, d.qos, d.retained with
  | some dup, some qos, some retained =>
      if d.rc = 1 then
        let topicName := match d.topicName with
          | ⟨some len, some topic⟩ => slice mem topic len
          | _ => io.unsetTopic
        let payload := if 0 ≤ d.payloadlen then
            some (slice mem (d.payload.getD 0) d.payloadlen.toNat)
          else none
        some ⟨topicName, payload, dup, qos, retained, d.packetid⟩
      else none
  | _, _, _ => none

/-- The handlers that the next round calls, each with the message it gets. -/
def Subscriber.deliveries (cuts : Nat → Int) (defaultMessageHandler : Option H) (io : CycleIo)
    (s : Subscriber cap H) : List (H × Message) :=
  let read := readPacket cuts s.client.toClient
  if read.1 = MsgType.publish then
    match received io read.2.readbuf.byte with
    | some m => (deliverMessage s.handlers defaultMessageHandler m.topicName).2.map fun h => (h, m)
    | none => []
  else []

/-- Rounds of `cycle`, and the handlers they call. -/
def Subscriber.rounds (cuts : Nat → Int) (defaultMessageHandler : Option H) :
    List CycleIo → Subscriber cap H → List (H × Message) × Subscriber cap H
  | [], s => ([], s)
  | io :: ios, s =>
      let rest := rounds cuts defaultMessageHandler ios (s.cycle cuts io)
      (s.deliveries cuts defaultMessageHandler io ++ rest.1, rest.2)

/-! ## The packets that `cycle` answers -/

/-- The message of a publication. -/
def Publish.message (m : Publish) : Message :=
  ⟨m.topicName, some m.payload, m.dup, m.qos, m.retained,
    if 0 < m.qos.val then some m.packetid.toNat else none⟩

/-- `PUBACK`, `PUBREC`, `PUBREL` or `PUBCOMP`, by its number. -/
def ackPacket (packettype : Nat) (packetid : UInt16) : Packet :=
  packetOf (headerByte packettype false (if packettype = 6 then 1 else 0) false)
    (writeInt packetid.toNat) (by rw [length_writeInt]; decide)

/-- What a server may send to a client that is connected. -/
inductive Inbound where
  | publish (m : Publish) (short : m.body.length < 128 ^ 4)
  | pubrec (packetid : UInt16)
  | pubrel (packetid : UInt16)
  | noted (p : Packet) (type : headerType p.header ∈ [MsgType.connack, MsgType.puback,
      MsgType.pubcomp, MsgType.suback, MsgType.pingresp])

namespace Inbound

/-- The packet on the connection. -/
def packet : Inbound → Packet
  | publish m short => packetOf m.header m.body short
  | pubrec packetid => ackPacket 5 packetid
  | pubrel packetid => ackPacket 6 packetid
  | noted p _ => p

/-- The answer of the client. -/
def reply : Inbound → List Packet
  | publish m _ =>
      if m.qos.val = 0 then []
      else if m.qos.val = 1 then [ackPacket 4 m.packetid]
      else [ackPacket 5 m.packetid]
  | pubrec packetid => [ackPacket 6 packetid]
  | pubrel packetid => [ackPacket 7 packetid]
  | noted _ _ => []

/-- The handlers that get a message from it. -/
def deliveries (t : MessageHandlers H) (defaultMessageHandler : Option H) :
    Inbound → List (H × Message)
  | publish m _ =>
      (deliverMessage t defaultMessageHandler m.topicName).2.map fun h => (h, m.message)
  | pubrec _ => []
  | pubrel _ => []
  | noted _ _ => []

end Inbound

/-- In the round an acknowledgement fits the send buffer and is sent, and no timer of
`keepalive` expires. -/
structure CycleIo.Clean (io : CycleIo) : Prop where
  room : 4 ≤ io.bufSize
  sends : ∀ packettype packetid, (io.transmission io.sends
    (mqttSerializeAck io.bufSize packettype false packetid)).send.1 = success
  sentTimer : io.lastSentExpired = false
  receivedTimer : io.lastReceivedExpired = false

theorem PublishData.Reads.received {mem : Nat → UInt8} {m : Publish}
    (h : (mqttDeserializePublish mem).Reads mem m) (io : CycleIo) :
    received io mem = some m.message := by
  obtain ⟨topic, htopic, hname⟩ := h.topicName
  obtain ⟨payload, hpayload, hlen, hbytes⟩ := h.payload
  simp only [Mqtt.received, h.accepted, htopic, hpayload, h.dup, h.qos, h.retained, hlen,
    h.packetid, if_true]
  rw [if_pos (Int.natCast_nonneg _), Int.toNat_natCast, Option.getD_some]
  rw [show slice mem topic m.topicName.length = m.topicName from hname,
    show slice mem payload m.payload.length = m.payload from hbytes]
  rfl

/-- A transmission that succeeds has sent the packet. -/
theorem CycleIo.send_of_success (io : CycleIo) (rounds : (length : Nat) → Nat → Round length)
    (bytes : List UInt8) (h : (io.transmission rounds (bytes.length, bytes)).send.1 = success) :
    (io.transmission rounds (bytes.length, bytes)).send.2 = bytes := by
  obtain ⟨n, -, hsend⟩ := sendPacket_eq (io.transmission rounds (bytes.length, bytes)).buf
    (io.transmission rounds (bytes.length, bytes)).rounds
  rw [Transmission.send, hsend] at h ⊢
  have hall : accepted (io.transmission rounds (bytes.length, bytes)).rounds n =
      (io.transmission rounds (bytes.length, bytes)).len.toNat := by
    by_contra hne
    rw [if_neg hne] at h
    exact absurd h (show failure ≠ success by decide)
  rw [hall, show (io.transmission rounds (bytes.length, bytes)).len.toNat = bytes.length from rfl]
  apply List.ext_getElem?
  intro i
  by_cases hi : i < bytes.length
  · simp [packet, slice, CycleIo.transmission, hi]
  · rw [List.getElem?_eq_none (by rw [packet, length_slice]; omega),
      List.getElem?_eq_none (by omega)]

theorem mqttSerializeAck_eq {buflen : Nat} (h : 4 ≤ buflen) (packettype : Nat)
    (packetid : UInt16) : mqttSerializeAck buflen packettype false packetid.toNat =
      (((ackPacket packettype packetid).bytes.length : Int),
        (ackPacket packettype packetid).bytes) := by
  rw [mqttSerializeAck, if_neg (Nat.not_lt.mpr h)]
  rfl

/-- In a clean round, an acknowledgement is serialised and sent. -/
theorem CycleIo.Clean.send_ack {io : CycleIo} (h : io.Clean) (packettype : Nat)
    (packetid : UInt16) :
    let t := io.transmission io.sends (mqttSerializeAck io.bufSize packettype false packetid.toNat)
    0 < t.len ∧ t.send = (success, (ackPacket packettype packetid).bytes) := by
  have hsent := h.sends packettype packetid.toNat
  rw [mqttSerializeAck_eq h.room] at hsent ⊢
  refine ⟨?_, Prod.ext hsent (io.send_of_success io.sends _ hsent)⟩
  simp only [CycleIo.transmission, Packet.length_bytes]
  omega

/-- A round that reads a packet and leaves nothing to `keepalive`. -/
theorem finishCycle_of_clean {io : CycleIo} (h : io.Clean) (readbuf : Buffer cap)
    (packetType : Int) (c : MqttClient cap) :
    finishCycle (cycleEnv io readbuf) packetType ⟨success, false, c⟩ = (packetType, c) := by
  have hquiet := @keepalive_of_not_expired cap (cycleEnv io readbuf) h.sentTimer h.receivedTimer c
  simp [finishCycle, hquiet]

theorem headerType_pubrec (packetid : UInt16) :
    headerType (Inbound.pubrec packetid).packet.header = MsgType.pubrec :=
  (headerByte_fields 5 false 0 false).1

theorem headerType_pubrel (packetid : UInt16) :
    headerType (Inbound.pubrel packetid).packet.header = MsgType.pubrel :=
  (headerByte_fields 6 false 1 false).1

theorem leadingInt_writeInt (packetid : UInt16) :
    leadingInt (writeInt packetid.toNat) = some packetid.toNat := by
  have hlt := packetid.toNat_lt
  have hhigh : packetid.toNat / 256 < 2 ^ 8 := by omega
  have hlow : packetid.toNat % 256 < 2 ^ 8 := by omega
  simp only [writeInt, leadingInt, UInt8.toNat_ofNat_of_lt' hhigh, UInt8.toNat_ofNat_of_lt' hlow]
  rw [Nat.div_add_mod]

/-- A publication is answered by its quality of service. -/
theorem handlePublish_inbound {io : CycleIo} (h : io.Clean) {m : Publish}
    (short : m.body.length < 128 ^ 4) {c : MqttClient cap}
    (hholds : Holds c.readbuf.byte 0 (Inbound.publish m short).packet.bytes) :
    handlePublish (cycleEnv io c.readbuf) c = ⟨success, false,
      c.write ((Inbound.publish m short).reply.flatMap Packet.bytes)⟩ := by
  have hreads := Publish.reads hholds rfl rfl
  have hqos : headerQos (c.readbuf.byte 0) = m.qos.val := by
    rw [Packet.holds_header hholds]
    exact m.header_fields.2.2.1
  have hread : (cycleEnv io c.readbuf).publishRead = true := decide_eq_true hreads.accepted
  have hcases : m.qos.val = 0 ∨ m.qos.val = 1 ∨ m.qos.val = 2 := by omega
  rw [handlePublish, hread, hqos]
  rcases hcases with hq | hq | hq
  · simp [hq, Inbound.reply, MqttClient.write]
  · obtain ⟨hlen, hsend⟩ := h.send_ack 4 m.packetid
    have hack : (cycleEnv io c.readbuf).ack MsgType.puback = io.transmission io.sends
        (mqttSerializeAck io.bufSize 4 false m.packetid.toNat) := by
      simp [cycleEnv, hreads.packetid, hq, MsgType.puback]
    simp [hq, Inbound.reply, hack, hsend, hlen, success, failure]
  · obtain ⟨hlen, hsend⟩ := h.send_ack 5 m.packetid
    have hack : (cycleEnv io c.readbuf).ack MsgType.pubrec = io.transmission io.sends
        (mqttSerializeAck io.bufSize 5 false m.packetid.toNat) := by
      simp [cycleEnv, hreads.packetid, hq, MsgType.pubrec]
    simp [hq, Inbound.reply, hack, hsend, hlen, success, failure]

/-- `PUBREC` is answered with `PUBREL`, and `PUBREL` with `PUBCOMP`. -/
theorem handleAck_inbound {io : CycleIo} (h : io.Clean) {packetType : Int} {reply : Nat}
    (hreply : (if packetType = MsgType.pubrec then MsgType.pubrel else MsgType.pubcomp) = reply)
    (htype : 6 ≤ reply) {received : Nat} {packetid : UInt16} {c : MqttClient cap}
    (hholds : Holds c.readbuf.byte 0 (ackPacket received packetid).bytes) :
    handleAck (cycleEnv io c.readbuf) packetType c =
      ⟨success, false, c.write (ackPacket reply packetid).bytes⟩ := by
  have hread := mqttDeserializeAck_eq hholds
  rw [show (ackPacket received packetid).body = writeInt packetid.toNat from rfl,
    leadingInt_writeInt] at hread
  obtain ⟨hlen, hsend⟩ := h.send_ack reply packetid
  have hack : (cycleEnv io c.readbuf).ack reply = io.transmission io.sends
      (mqttSerializeAck io.bufSize reply false packetid.toNat) := by
    have hne : ¬((reply : Int) = MsgType.puback ∨ (reply : Int) = MsgType.pubrec) := by
      simp only [MsgType.puback, MsgType.pubrec]
      omega
    simp [cycleEnv, hread, hne]
  have hackRead : (cycleEnv io c.readbuf).ackRead = true := by simp [cycleEnv, hread]
  rw [handleAck, hackRead, hreply, hack]
  simp [hsend, hlen]

/-- What `handlePacket` does with a packet in the read buffer. -/
theorem handlePacket_inbound {io : CycleIo} (h : io.Clean) (i : Inbound) {c : MqttClient cap}
    (hholds : Holds c.readbuf.byte 0 i.packet.bytes) : ∃ c' : MqttClient cap,
      handlePacket (cycleEnv io c.readbuf) (headerType i.packet.header) c =
          ⟨success, false, c'⟩ ∧
        SessionKept c c' ∧ c'.toClient = c.toClient ∧
        c'.written = c.written ++ i.reply.flatMap Packet.bytes := by
  cases i with
  | publish m short =>
      refine ⟨_, ?_, sessionKept_write c _, rfl, rfl⟩
      rw [show headerType (Inbound.publish m short).packet.header = MsgType.publish from
        m.header_fields.1, ← handlePublish_inbound h short hholds]
      rfl
  | pubrec packetid =>
      refine ⟨_, ?_, sessionKept_write c _, rfl, rfl⟩
      have hreply : (if MsgType.pubrec = MsgType.pubrec then MsgType.pubrel else MsgType.pubcomp) =
          ((6 : Nat) : Int) := rfl
      rw [headerType_pubrec, Inbound.reply, List.flatMap_singleton,
        ← handleAck_inbound h hreply (by decide) hholds]
      rfl
  | pubrel packetid =>
      refine ⟨_, ?_, sessionKept_write c _, rfl, rfl⟩
      have hreply : (if MsgType.pubrel = MsgType.pubrec then MsgType.pubrel else MsgType.pubcomp) =
          ((7 : Nat) : Int) := rfl
      rw [headerType_pubrel, Inbound.reply, List.flatMap_singleton,
        ← handleAck_inbound h hreply (by decide) hholds]
      rfl
  | noted p type =>
      simp only [Inbound.packet, Inbound.reply, List.flatMap_nil, List.append_nil]
      clear hholds
      generalize headerType p.header = t at type
      simp only [List.mem_cons, List.not_mem_nil, or_false] at type
      rcases type with rfl | rfl | rfl | rfl | rfl
      · exact ⟨c, rfl, .refl c, rfl, rfl⟩
      · exact ⟨c, rfl, .refl c, rfl, rfl⟩
      · exact ⟨c, rfl, .refl c, rfl, rfl⟩
      · exact ⟨c, rfl, .refl c, rfl, rfl⟩
      · exact ⟨_, rfl, ⟨rfl, rfl, rfl, rfl⟩, rfl, rfl⟩

/-- What a round returns and leaves that finds a packet at the front of the connection. -/
structure Answered (i : Inbound) (post : List UInt8) (c : MqttClient cap)
    (r : Int × MqttClient cap) : Prop where
  rc : r.1 = headerType i.packet.header
  rest : r.2.stream.rest = post
  readbuf : r.2.readbuf.Starts i.packet.bytes
  kept : SessionKept c r.2
  written : r.2.written = c.written ++ i.reply.flatMap Packet.bytes

theorem pahoCycle_inbound (hcap : cap ≤ 32767) {cuts : Nat → Int} (hcuts : Stream.Pieces cuts)
    {io : CycleIo} (h : io.Clean) (i : Inbound) (hfit : i.packet.bytes.length ≤ cap)
    {c : MqttClient cap} {post : List UInt8} (hrest : c.stream.rest = i.packet.bytes ++ post) :
    Answered i post c (pahoCycle cuts io c) := by
  obtain ⟨read, hread, hpost, hstarts⟩ := readPacket_eq hcap hcuts i.packet hfit hrest
  obtain ⟨c', hhandled, hkept, hclient, hwritten⟩ := @handlePacket_inbound cap io h i
    { c with toClient := read } (Holds.of_starts hstarts hfit)
  rw [pahoCycle, cycle, hread]
  simp only [hhandled, finishCycle_of_clean h]
  have hloaded : SessionKept c { c with toClient := read } := ⟨rfl, rfl, rfl, rfl⟩
  exact ⟨rfl, by rw [hclient, hpost], by rw [hclient]; exact hstarts, hloaded.trans hkept,
    hwritten⟩

theorem Subscriber.deliveries_inbound (hcap : cap ≤ 32767) {cuts : Nat → Int}
    (hcuts : Stream.Pieces cuts) (i : Inbound) (hfit : i.packet.bytes.length ≤ cap)
    {s : Subscriber cap H} {post : List UInt8}
    (hrest : s.client.stream.rest = i.packet.bytes ++ post) (defaultMessageHandler : Option H)
    (io : CycleIo) :
    s.deliveries cuts defaultMessageHandler io =
      i.deliveries s.handlers defaultMessageHandler := by
  obtain ⟨read, hread, -, hstarts⟩ := readPacket_eq hcap hcuts i.packet hfit hrest
  have hholds := Holds.of_starts hstarts hfit
  rw [Subscriber.deliveries, hread]
  cases i with
  | publish m short =>
      have hreceived := (Publish.reads hholds rfl rfl).received io
      have htype : headerType (Inbound.publish m short).packet.header = MsgType.publish :=
        m.header_fields.1
      simp only [htype, if_true, hreceived]
      rfl
  | pubrec packetid =>
      rw [headerType_pubrec]
      exact if_neg (show MsgType.pubrec ≠ MsgType.publish by decide)
  | pubrel packetid =>
      rw [headerType_pubrel]
      exact if_neg (show MsgType.pubrel ≠ MsgType.publish by decide)
  | noted p type =>
      have hne : headerType (Inbound.noted p type).packet.header ≠ MsgType.publish := by
        intro htype
        rw [Inbound.packet] at htype
        rw [htype] at type
        revert type
        decide
      simp only [hne, if_false]
      rfl

theorem Subscriber.handlers_cycle {cuts : Nat → Int} {io : CycleIo} {s : Subscriber cap H}
    (h : SessionKept s.client (pahoCycle cuts io s.client).2) :
    (s.cycle cuts io).handlers = s.handlers := by
  simp only [Subscriber.handlers, Subscriber.cycle, h.topicFilters]

/-! ## Whole runs -/

/-- Packets that arrive in any pieces, while acknowledgements can be sent: the messages reach
the handlers that their topics select, each of them once and in their order, and every packet
gets its answer, in the same order.  The session stays as it is.

A publication that the server repeats is delivered again, also with quality of service 2:
`cycle` keeps no packet identifiers. -/
theorem rounds_of_inbound (hcap : cap ≤ 32767) {cuts : Nat → Int} (hcuts : Stream.Pieces cuts)
    (defaultMessageHandler : Option H) (packets : List Inbound)
    (hfit : ∀ i ∈ packets, i.packet.bytes.length ≤ cap) (ios : List CycleIo)
    (hrounds : ios.length = packets.length) (hclean : ∀ io ∈ ios, io.Clean)
    (s : Subscriber cap H) (post : List UInt8)
    (hrest : s.client.stream.rest = packets.flatMap (fun i => i.packet.bytes) ++ post) :
    let r := s.rounds cuts defaultMessageHandler ios
    r.1 = packets.flatMap (Inbound.deliveries s.handlers defaultMessageHandler) ∧
      r.2.client.written = s.client.written ++
        packets.flatMap (fun i => i.reply.flatMap Packet.bytes) ∧
      SessionKept s.client r.2.client ∧ r.2.client.stream.rest = post := by
  induction packets generalizing ios s with
  | nil =>
      obtain rfl := List.length_eq_zero_iff.mp hrounds
      exact ⟨rfl, (List.append_nil _).symm, .refl _, hrest⟩
  | cons i packets ih =>
      obtain ⟨io, ios, rfl⟩ := List.exists_cons_of_length_eq_add_one hrounds
      simp only [List.forall_mem_cons] at hfit hclean
      rw [List.flatMap_cons, List.append_assoc] at hrest
      have hround := pahoCycle_inbound hcap hcuts hclean.1 i hfit.1 hrest
      have hdelivered := s.deliveries_inbound hcap hcuts i hfit.1 hrest defaultMessageHandler io
      obtain ⟨hmessages, hwritten, hkept, hlast⟩ := ih hfit.2 ios
        (by simpa using hrounds) hclean.2 (s.cycle cuts io) hround.rest
      simp only [Subscriber.rounds]
      refine ⟨?_, ?_, hround.kept.trans hkept, hlast⟩
      · rw [hmessages, hdelivered, Subscriber.handlers_cycle hround.kept, List.flatMap_cons]
      · rw [hwritten, List.flatMap_cons, ← List.append_assoc, ← hround.written]
        rfl

/-- `sl_Send` accepts what it is given. -/
def wholeRounds (length : Nat) (_ : Nat) : Round length :=
  if h : 1 ≤ requested length then ⟨false, requested length, .inr ⟨h, Int.le_refl _⟩⟩
  else ⟨true, -1, .inl (by decide)⟩

/-- The first call accepts the whole packet. -/
theorem Transmission.send_of_first {t : Transmission} (hpos : 0 < t.len.toNat)
    (hexpired : (t.rounds 0).expired = false) (hresult : (t.rounds 0).result = t.len.toNat) :
    t.send.1 = success := by
  have hpasses : Passes t.rounds 0 := ⟨hexpired, by omega⟩
  rw [Transmission.send, sendPacket, sendLoop_of_passes t.buf hpos hpasses,
    sendLoop_of_not_passes t.buf fun hpass => absurd hpass.2 (by omega)]
  exact if_pos (by simp only [hresult, Int.toNat_natCast, Nat.zero_add])

/-- A round with the send buffer of mqtt_client.c. -/
def wholeIo : CycleIo := ⟨80, fun _ => 0, 0, [], wholeRounds, wholeRounds, false, false⟩

/-- A packet whose length is a small number is sent. -/
theorem wholeIo_send {len : Int} (bytes : List UInt8) (hpos : 0 < len.toNat)
    (hround : (wholeRounds len.toNat 0).expired = false ∧
      (wholeRounds len.toNat 0).result = len.toNat) :
    (wholeIo.transmission wholeIo.sends (len, bytes)).send.1 = success :=
  Transmission.send_of_first hpos hround.1 hround.2

theorem clean_wholeIo : wholeIo.Clean := by
  refine ⟨by decide, ?_, rfl, rfl⟩
  intro packettype packetid
  have hlen : (mqttSerializeAck wholeIo.bufSize packettype false packetid).1 = 4 := by
    rw [mqttSerializeAck, if_neg (by decide)]
    simp only [List.length_append, List.length_cons, length_writeInt,
      (length_mqttPacketEncode_eq_one_iff 2).mpr (by decide)]
    rfl
  generalize mqttSerializeAck wholeIo.bufSize packettype false packetid = r at hlen ⊢
  obtain ⟨len, bytes⟩ := r
  subst hlen
  exact wholeIo_send bytes (by decide) (by decide)

theorem Packet.length_bytes_of_short {p : Packet} (h : p.body.length < 128) :
    p.bytes.length = p.body.length + 2 := by
  rw [Packet.length_bytes, p.length_lengthBytes_eq_one_iff.mpr h]
  omega

theorem smallPublish_short : smallPublish.body.length < 128 ^ 4 := by decide

/-- A publication of quality of service 1, and a `PUBREL`. -/
def smallInbound : List Inbound := [.publish smallPublish smallPublish_short, .pubrel 7]

/-- A client with a handler for the topic of `smallPublish`. -/
def smallSubscriber : Subscriber 80 Nat where
  client := { idleClient with
    stream := ⟨smallInbound.flatMap (fun i => i.packet.bytes) ++ [], 0⟩
    topicFilters := [some [97], none, none, none, none] }
  fps := [some 1, none, none, none, none]
  filters_size := rfl
  fps_size := rfl

/-- They come one byte at a time. -/
theorem rounds_of_inbound_smallInbound :
    (smallSubscriber.rounds (fun _ => 1) none [wholeIo, wholeIo]).1 =
      [(1, smallPublish.message)] := by
  have hfit : ∀ i ∈ smallInbound, i.packet.bytes.length ≤ 80 := by
    intro i hi
    have hbody : i.packet.body.length < 10 := by
      revert i
      decide
    rw [Packet.length_bytes_of_short (by omega)]
    omega
  exact (rounds_of_inbound (by decide) (fun _ => le_refl 1) none smallInbound hfit
    [wholeIo, wholeIo] rfl (by simp [clean_wholeIo]) smallSubscriber [] rfl).1.trans (by decide)

end Uiso.Mqtt
