/-
  Mqtt/Publication.lean --- what the MQTT client sends and what it takes for a packet.

  Whatever the client serialises is a packet that fits its send buffer.  A publication that
  is serialised, read again from a connection in any pieces and deserialised is the same
  publication.

  In the other direction the bytes come from the network, and nothing is known of them:

      publish_accepted_iff       : which of them `MQTTDeserialize_publish` accepts
      acknowledgement_accepted   : what the deserialisers of acknowledgements make of them
-/
import Uiso.Mqtt.Codec

set_option autoImplicit false

namespace Uiso.Mqtt

open Uiso.Foundation

/-! ## Serialised packets -/

/-- `MQTTPacket_len` is no less than the length of the packet. -/
theorem length_le_mqttPacketLen {n : Nat} (hn : n < 128 ^ 4) :
    1 + (mqttPacketEncode n).length + n ≤ mqttPacketLen n := by
  unfold mqttPacketLen
  simp only
  split
  · have := length_mqttPacketEncode_le (k := 1) (by decide) (by omega : n < 128 ^ 1)
    omega
  · split
    · have := length_mqttPacketEncode_le (k := 2) (by decide) (by omega : n < 128 ^ 2)
      omega
    · split
      · have := length_mqttPacketEncode_le (k := 3) (by decide) (by omega : n < 128 ^ 3)
        omega
      · have := length_mqttPacketEncode_le (k := 4) (by decide) hn
        omega

theorem lt_mqttPacketLen (n : Nat) : n < mqttPacketLen n := by
  unfold mqttPacketLen
  simp only
  split
  · omega
  · split
    · omega
    · split <;> omega

/-- The packet with a header and a body. -/
def packetOf (header : UInt8) (body : List UInt8) (h : body.length < 128 ^ 4) : Packet where
  header := header
  lengthBytes := mqttPacketEncode body.length
  body := body
  canonical := varint_mqttPacketEncode body.length
  short := length_mqttPacketEncode_le (by decide) h

/-- A serialiser has filled the buffer with a packet, which it is not too short for. -/
structure Serialized (buflen : Nat) (r : Int × List UInt8) (p : Packet) : Prop where
  bytes : r.2 = p.bytes
  length : r.1 = p.bytes.length
  fits : p.bytes.length ≤ buflen

/-- A serialiser that succeeds, and whose computed length is that of the body. -/
theorem serialize_serialized {buflen : Nat} (hbuf : buflen ≤ 128 ^ 4) (header : UInt8)
    (body : List UInt8) (hok : 0 < (serialize buflen body.length header body).1) :
    ∃ h : body.length < 128 ^ 4,
      Serialized buflen (serialize buflen body.length header body) (packetOf header body h) := by
  unfold serialize at hok ⊢
  split at hok
  · exact absurd hok (by decide)
  · rename_i hfits
    have hlt := lt_mqttPacketLen body.length
    have hsmall : body.length < 128 ^ 4 := by omega
    have hle := length_le_mqttPacketLen hsmall
    rw [if_neg hfits]
    refine ⟨hsmall, ?_, ?_, ?_⟩
    · simp [packetOf, Packet.bytes]
    · rw [Packet.length_bytes]
      simp [packetOf]
      omega
    · rw [Packet.length_bytes]
      simp only [packetOf]
      omega

/-- What the client serialises, in `MQTTConnect`, `MQTTSubscribe`, `MQTTUnsubscribe`,
`MQTTPublish`, `MQTTDisconnect`, `keepalive` and `cycle`. -/
inductive Request where
  | connect (options : ConnectData) (version : options.mqttVersion = 3 ∨ options.mqttVersion = 4)
  | subscribe (packetid : Nat) (topicFilter : List UInt8) (qos : Nat)
  | unsubscribe (packetid : Nat) (topicFilter : List UInt8)
  | publish (qos : Nat) (retained : Bool) (packetid : Nat) (topicName payload : List UInt8)
  | ack (packettype packetid : Nat)
  | pingreq
  | disconnect

/-- The serialiser of each request. -/
def Request.serialize (buflen : Nat) : Request → Int × List UInt8
  | .connect options _ => mqttSerializeConnect buflen options
  | .subscribe packetid topicFilter qos => mqttSerializeSubscribe buflen packetid topicFilter qos
  | .unsubscribe packetid topicFilter => mqttSerializeUnsubscribe buflen packetid topicFilter
  | .publish qos retained packetid topicName payload =>
      mqttSerializePublish buflen false qos retained packetid topicName payload
  | .ack packettype packetid => mqttSerializeAck buflen packettype false packetid
  | .pingreq => mqttSerializeZero buflen 12
  | .disconnect => mqttSerializeZero buflen 14

theorem serialized_connect {buflen : Nat} (hbuf : buflen ≤ 128 ^ 4) {o : ConnectData}
    (hversion : o.mqttVersion = 3 ∨ o.mqttVersion = 4)
    (hok : 0 < (mqttSerializeConnect buflen o).1) :
    ∃ p, Serialized buflen (mqttSerializeConnect buflen o) p := by
  unfold mqttSerializeConnect at hok ⊢
  generalize hbody : (_ ++ _ : List UInt8) = body at hok ⊢
  have hlength : mqttSerializeConnectLength o = body.length := by
    rw [← hbody, mqttSerializeConnectLength]
    rcases hversion with hv | hv <;> cases o.will <;> cases o.username <;> cases o.password <;>
      simp [hv, length_writeCString, length_writeInt] <;> omega
  rw [hlength] at hok ⊢
  exact ⟨_, (serialize_serialized hbuf _ body hok).2⟩

/-- The serialisers without a body to compute the length of. -/
theorem serialized_of_length_le {buflen : Nat} (header : UInt8) {body : List UInt8} (n : Nat)
    (hbody : body.length = n) (hn : n < 128)
    (hfits : 1 + (mqttPacketEncode n).length + body.length ≤ buflen) :
    ∃ p, Serialized buflen
      ((header :: mqttPacketEncode n ++ body).length, header :: mqttPacketEncode n ++ body) p := by
  subst hbody
  refine ⟨packetOf header body (by omega), ?_, ?_, ?_⟩
  · simp [packetOf, Packet.bytes]
  · rw [Packet.length_bytes]
    simp [packetOf]
    omega
  · rw [Packet.length_bytes]
    exact hfits

theorem serialized_ack {buflen packettype packetid : Nat} {dup : Bool}
    (hok : 0 < (mqttSerializeAck buflen packettype dup packetid).1) :
    ∃ p, Serialized buflen (mqttSerializeAck buflen packettype dup packetid) p := by
  unfold mqttSerializeAck at hok ⊢
  split at hok
  · exact absurd hok (by decide)
  · rename_i hlong
    have hone := (length_mqttPacketEncode_eq_one_iff 2).mpr (by decide)
    rw [if_neg hlong]
    exact serialized_of_length_le _ 2 (length_writeInt packetid) (by decide)
      (by rw [hone, length_writeInt]; omega)

theorem serialized_zero {buflen packettype : Nat}
    (hok : 0 < (mqttSerializeZero buflen packettype).1) :
    ∃ p, Serialized buflen (mqttSerializeZero buflen packettype) p := by
  unfold mqttSerializeZero at hok ⊢
  split at hok
  · exact absurd hok (by decide)
  · rename_i hlong
    have hone := (length_mqttPacketEncode_eq_one_iff 0).mpr (by decide)
    have hfits : 1 + (mqttPacketEncode 0).length + ([] : List UInt8).length ≤ buflen := by
      rw [hone, List.length_nil]
      omega
    have hpacket := serialized_of_length_le (headerByte packettype false 0 false) 0 rfl
      (by decide) hfits
    rw [if_neg hlong]
    simpa using hpacket

theorem mqttSerializePublishLength_eq (qos packetid : Nat) (topicName payload : List UInt8) :
    mqttSerializePublishLength qos topicName.length payload.length =
      (writeCString topicName ++ (if 0 < qos then writeInt packetid else []) ++
        payload).length := by
  rw [mqttSerializePublishLength, List.length_append, List.length_append, length_writeCString]
  split
  · rw [length_writeInt]
    omega
  · rw [List.length_nil]
    omega

/-- Whatever the client serialises is framed as one packet, and it lies within the send
buffer. -/
theorem request_serialized {buflen : Nat} (hbuf : buflen ≤ 128 ^ 4) (request : Request)
    (hok : 0 < (request.serialize buflen).1) :
    ∃ p : Packet, Serialized buflen (request.serialize buflen) p := by
  cases request with
  | connect options version => exact serialized_connect hbuf version hok
  | subscribe packetid topicFilter qos =>
      have hlength : 2 + (2 + topicFilter.length + 1) =
          (writeInt packetid ++ (writeCString topicFilter ++ [UInt8.ofNat qos])).length := by
        simp only [List.length_append, length_writeInt, length_writeCString, List.length_singleton]
      simp only [Request.serialize, mqttSerializeSubscribe, hlength] at hok ⊢
      exact ⟨_, (serialize_serialized hbuf _ _ hok).2⟩
  | unsubscribe packetid topicFilter =>
      have hlength : 2 + (2 + topicFilter.length) =
          (writeInt packetid ++ writeCString topicFilter).length := by
        simp only [List.length_append, length_writeInt, length_writeCString]
      simp only [Request.serialize, mqttSerializeUnsubscribe, hlength] at hok ⊢
      exact ⟨_, (serialize_serialized hbuf _ _ hok).2⟩
  | publish qos retained packetid topicName payload =>
      simp only [Request.serialize, mqttSerializePublish,
        mqttSerializePublishLength_eq qos packetid] at hok ⊢
      exact ⟨_, (serialize_serialized hbuf _ _ hok).2⟩
  | ack packettype packetid => exact serialized_ack hok
  | pingreq => exact serialized_zero hok
  | disconnect => exact serialized_zero hok

/-- The ping that `keepalive` sends, in the send buffer of mqtt_client.c. -/
theorem request_serialized_pingreq :
    ∃ p : Packet, Serialized 80 (Request.serialize 80 .pingreq) p :=
  request_serialized (by decide) .pingreq
    (by simp [Request.serialize, mqttSerializeZero, mqttPacketEncode])

/-! ## Publications -/

/-- A publication. -/
structure Publish where
  dup : Bool
  qos : Fin 3
  retained : Bool
  packetid : UInt16
  topicName : List UInt8
  payload : List UInt8
  topic_short : topicName.length < 65536

namespace Publish

/-- `MQTTSerialize_publish` -/
def serialize (buflen : Nat) (m : Publish) : Int × List UInt8 :=
  mqttSerializePublish buflen m.dup m.qos m.retained m.packetid.toNat m.topicName m.payload

/-- The header byte of a publication. -/
def header (m : Publish) : UInt8 := headerByte 3 m.dup m.qos m.retained

/-- What follows the topic. -/
def rest (m : Publish) : List UInt8 :=
  (if 0 < m.qos.val then writeInt m.packetid.toNat else []) ++ m.payload

/-- The body of a publication. -/
def body (m : Publish) : List UInt8 := writeCString m.topicName ++ m.rest

end Publish

/-- The fields of the header byte. -/
theorem headerByte_fields : ∀ (type : Fin 16) (dup : Bool) (qos : Fin 4) (retain : Bool),
    headerType (headerByte type dup qos retain) = type ∧
      headerDup (headerByte type dup qos retain) = dup ∧
      headerQos (headerByte type dup qos retain) = qos ∧
      headerRetain (headerByte type dup qos retain) = retain := by
  decide

theorem Publish.header_fields (m : Publish) : headerType m.header = MsgType.publish ∧
    headerDup m.header = m.dup ∧ headerQos m.header = m.qos ∧ headerRetain m.header = m.retained :=
  headerByte_fields 3 m.dup ⟨m.qos, by omega⟩ m.retained

theorem Publish.serialized {buflen : Nat} (hbuf : buflen ≤ 128 ^ 4) (m : Publish)
    (hok : 0 < (m.serialize buflen).1) : ∃ h : m.body.length < 128 ^ 4,
      Serialized buflen (m.serialize buflen) (packetOf m.header m.body h) := by
  have hbody : m.body = writeCString m.topicName ++
      (if 0 < m.qos.val then writeInt m.packetid.toNat else []) ++ m.payload := by
    rw [Publish.body, Publish.rest, List.append_assoc]
  simp only [Publish.serialize, mqttSerializePublish,
    mqttSerializePublishLength_eq m.qos m.packetid.toNat, ← hbody] at hok ⊢
  exact serialize_serialized hbuf m.header m.body hok

theorem Publish.splitTopic_body (m : Publish) :
    splitTopic m.body = some (m.topicName, m.rest) := by
  have hshort := m.topic_short
  have hhigh : m.topicName.length / 256 < 2 ^ 8 := by omega
  have hlow : m.topicName.length % 256 < 2 ^ 8 := by omega
  have hlen : 256 * (UInt8.ofNat (m.topicName.length / 256)).toNat +
      (UInt8.ofNat (m.topicName.length % 256)).toNat = m.topicName.length := by
    rw [UInt8.toNat_ofNat_of_lt' hhigh, UInt8.toNat_ofNat_of_lt' hlow]
    omega
  simp only [Publish.body, writeCString, writeInt, List.cons_append, List.nil_append, splitTopic,
    hlen]
  simp

/-- The outputs of `MQTTDeserialize_publish` are a publication. -/
structure PublishData.Reads (mem : Nat → UInt8) (d : PublishData) (m : Publish) : Prop where
  accepted : d.rc = 1
  dup : d.dup = some m.dup
  qos : d.qos = some m.qos.val
  retained : d.retained = some m.retained
  packetid : d.packetid = if 0 < m.qos.val then some m.packetid.toNat else none
  topicName : ∃ pos, d.topicName = ⟨some m.topicName.length, some pos⟩ ∧ Holds mem pos m.topicName
  payload : ∃ pos, d.payload = some pos ∧ d.payloadlen = m.payload.length ∧
    Holds mem pos m.payload

/-- A publication in the read buffer is deserialised. -/
theorem Publish.reads {mem : Nat → UInt8} {m : Publish} {p : Packet} (h : Holds mem 0 p.bytes)
    (hheader : p.header = m.header) (hbody : p.body = m.body) :
    (mqttDeserializePublish mem).Reads mem m := by
  obtain ⟨htype, hdup, hqos, hretain⟩ := m.header_fields
  rw [← hheader] at htype hdup hqos hretain
  obtain ⟨pos, htopic, hrest, hdata⟩ :=
    mqttDeserializePublish_of_some h htype (by rw [hbody]; exact m.splitTopic_body)
  rw [hdata, hqos, hdup, hretain]
  by_cases hpos : 0 < m.qos.val
  · simp only [Publish.rest, hpos, if_true] at hrest ⊢
    rw [holds_append, length_writeInt] at hrest
    have hid := readInt_writeInt m.packetid.toNat_lt hrest.1
    refine ⟨rfl, rfl, rfl, rfl, by rw [if_pos hpos, hid], ⟨pos, rfl, htopic⟩, ?_⟩
    refine ⟨_, rfl, ?_, hrest.2⟩
    simp only [List.length_append, length_writeInt]
    omega
  · simp only [Publish.rest, hpos, if_false, List.nil_append] at hrest ⊢
    exact ⟨rfl, rfl, rfl, rfl, by rw [if_neg hpos], ⟨pos, rfl, htopic⟩, _, rfl, rfl, hrest⟩

/-- A publication that is serialised and arrives at the front of a connection, in whatever
pieces, is read whole and deserialised as what it was. -/
theorem publish_roundTrip (buflen : Nat) {cap : Nat} (hbuf : buflen ≤ 128 ^ 4)
    (hcap : cap ≤ 32767) {cuts : Nat → Int} (hcuts : Stream.Pieces cuts) (m : Publish)
    (hok : 0 < (m.serialize buflen).1) (hfit : (m.serialize buflen).2.length ≤ cap)
    (c : Client cap) (post : List UInt8)
    (hrest : c.stream.rest = (m.serialize buflen).2 ++ post) :
    (readPacket cuts c).1 = MsgType.publish ∧ (readPacket cuts c).2.stream.rest = post ∧
      (mqttDeserializePublish (readPacket cuts c).2.readbuf.byte).Reads
        (readPacket cuts c).2.readbuf.byte m := by
  obtain ⟨hsmall, hserialized⟩ := m.serialized hbuf hok
  rw [hserialized.bytes] at hfit hrest
  obtain ⟨c', hread, hpost, hstarts⟩ :=
    readPacket_eq hcap hcuts (packetOf m.header m.body hsmall) hfit hrest
  rw [hread]
  exact ⟨m.header_fields.1, hpost, Publish.reads (Holds.of_starts hstarts hfit) rfl rfl⟩

/-- A publication of `[1]` to the topic `a`. -/
def smallPublish : Publish := ⟨false, 1, false, 7, [97], [1], by decide⟩

theorem serialize_smallPublish :
    smallPublish.serialize 80 = (8, [0x32, 6, 0, 1, 97, 0, 7, 1]) := by
  simp [Publish.serialize, smallPublish, mqttSerializePublish, mqttSerializePublishLength,
    serialize, mqttPacketLen, mqttPacketEncode, headerByte, writeCString, writeInt]

/-- It comes one byte at a time, with another packet behind it. -/
theorem publish_roundTrip_smallPublish :
    let c : Client 80 := ⟨⟨[0x32, 6, 0, 1, 97, 0, 7, 1, 0xD0, 0], 0⟩, Buffer.zero 80⟩
    (mqttDeserializePublish (readPacket (fun _ => 1) c).2.readbuf.byte).Reads
      (readPacket (fun _ => 1) c).2.readbuf.byte smallPublish :=
  (publish_roundTrip 80 (by decide) (by decide) (fun _ => le_refl 1) smallPublish
    (by rw [serialize_smallPublish]; decide) (by rw [serialize_smallPublish]; decide)
    ⟨⟨[0x32, 6, 0, 1, 97, 0, 7, 1, 0xD0, 0], 0⟩, Buffer.zero 80⟩ [0xD0, 0]
    (by rw [serialize_smallPublish]; rfl)).2.2

/-! ## Packets from the network -/

/-- Whatever arrives, when `readPacket` returns `PUBLISH` the deserialiser accepts the packet
if it holds the topic it announces, and also without one if its body is shorter than 128
bytes.  In that case `topicName.data` is not set.  The payload has a negative length if the
packet identifier is missing behind a topic. -/
theorem publish_accepted_iff {cap : Nat} (hmin : 5 ≤ cap) (hcap : cap ≤ 32767)
    {cuts : Nat → Int} {c : Client cap} (htype : (readPacket cuts c).1 = MsgType.publish) :
    ∃ p : Packet, (readPacket cuts c).2.readbuf.Starts p.bytes ∧
      let d := mqttDeserializePublish (readPacket cuts c).2.readbuf.byte
      (d.rc = 1 ↔ splitTopic p.body ≠ none ∨ p.body.length < 128) ∧
        (d.topicName.data = none ↔ splitTopic p.body = none) ∧
        (d.payloadlen < 0 ↔ 0 < headerQos p.header ∧
          ∃ topic rest, splitTopic p.body = some (topic, rest) ∧ rest.length < 2) := by
  obtain ⟨p, hfit, hheader, hstarts⟩ := readPacket_sound hmin hcap (by rw [htype]; decide)
  have hholds := Holds.of_starts hstarts hfit
  have hpublish : headerType p.header = MsgType.publish := hheader.trans htype
  refine ⟨p, hstarts, mqttDeserializePublish_accepts_iff hholds hpublish, ?_⟩
  cases htopic : splitTopic p.body with
  | none =>
      obtain ⟨-, hdata, hlen⟩ := mqttDeserializePublish_of_none hholds hpublish htopic
      simp [hdata, hlen]
  | some split =>
      obtain ⟨topic, rest⟩ := split
      obtain ⟨pos, -, -, hdata⟩ := mqttDeserializePublish_of_some hholds hpublish htopic
      rw [hdata]
      split <;> simp [*]

/-- A `PUBLISH` without a body. -/
def emptyPublish : Packet := { pingresp with header := 0x30 }

/-- It is accepted, without a topic. -/
theorem publish_accepted_emptyPublish :
    let c : Client 80 := ⟨⟨emptyPublish.bytes, 0⟩, Buffer.zero 80⟩
    (readPacket (fun _ => 1) c).1 = MsgType.publish ∧
      ∃ p : Packet, (readPacket (fun _ => 1) c).2.readbuf.Starts p.bytes ∧
        ((mqttDeserializePublish (readPacket (fun _ => 1) c).2.readbuf.byte).rc = 1 ↔
          splitTopic p.body ≠ none ∨ p.body.length < 128) := by
  obtain ⟨c', hread, -, -⟩ := @readPacket_eq 80 (by decide) (fun _ => 1) (fun _ => le_refl 1)
    emptyPublish (by decide) ⟨⟨emptyPublish.bytes, 0⟩, Buffer.zero 80⟩ []
    (List.append_nil _).symm
  have htype : (readPacket (fun _ => 1) (⟨⟨emptyPublish.bytes, 0⟩, Buffer.zero 80⟩ :
      Client 80)).1 = MsgType.publish := congrArg Prod.fst hread
  obtain ⟨p, hstarts, hrc, -, -⟩ := publish_accepted_iff (by decide) (by decide) htype
  exact ⟨htype, p, hstarts, hrc⟩

/-- Whatever arrives, `MQTTDeserialize_ack` and `MQTTDeserialize_connack` accept it; if the body
is too short they do not set what they should have read from it.  `MQTTDeserialize_suback`
accepts one return code more than it is told to, and writes it. -/
theorem acknowledgement_accepted {cap : Nat} (hmin : 5 ≤ cap) (hcap : cap ≤ 32767)
    {cuts : Nat → Int} {c : Client cap} (hpos : 0 < (readPacket cuts c).1) :
    ∃ p : Packet, (readPacket cuts c).2.readbuf.Starts p.bytes ∧
      let mem := (readPacket cuts c).2.readbuf.byte
      ((mqttDeserializeAck mem).1 = 1 ∧
          ((mqttDeserializeAck mem).2 = none ↔ p.body.length < 2)) ∧
        ((readPacket cuts c).1 = MsgType.connack → (mqttDeserializeConnack mem).1 = 1 ∧
          ((mqttDeserializeConnack mem).2 = none ↔ p.body.length < 2)) ∧
        ((readPacket cuts c).1 = MsgType.suback → ∀ maxcount,
          (mqttDeserializeSuback maxcount mem).1 =
              (if p.body.length - 2 ≤ maxcount + 1 then 1 else -1) ∧
            (mqttDeserializeSuback maxcount mem).2.length =
              min (p.body.length - 2) (maxcount + 1)) := by
  obtain ⟨p, hfit, hheader, hstarts⟩ := readPacket_sound hmin hcap hpos
  have hholds := Holds.of_starts hstarts hfit
  refine ⟨p, hstarts, ?_, ?_, ?_⟩
  · rw [mqttDeserializeAck_eq hholds]
    exact ⟨rfl, leadingInt_eq_none_iff p.body⟩
  · intro htype
    obtain ⟨hrc, hcode⟩ := mqttDeserializeConnack_eq hholds (hheader.trans htype)
    refine ⟨hrc, ?_⟩
    rw [← Option.map_eq_none_iff, hcode, List.head?_eq_none_iff, ← List.length_eq_zero_iff,
      List.length_tail]
    omega
  · intro htype maxcount
    rw [mqttDeserializeSuback_eq maxcount hholds (hheader.trans htype),
      subackLoop_rc maxcount 0 _ (Nat.zero_le _), length_subackLoop maxcount 0 _ (Nat.zero_le _),
      List.length_drop, Nat.sub_zero]
    exact ⟨rfl, rfl⟩

/-- A SUBACK with two return codes. -/
def longSuback : Packet := ⟨0x90, [4], [0, 1, 0, 0], .last 4 (by decide), by decide⟩

/-- `MQTTSubscribe` gives room for one. -/
theorem acknowledgement_accepted_longSuback :
    let c : Client 80 := ⟨⟨longSuback.bytes, 0⟩, Buffer.zero 80⟩
    ∃ p : Packet, (readPacket (fun _ => 1) c).2.readbuf.Starts p.bytes ∧
      (mqttDeserializeSuback 1 (readPacket (fun _ => 1) c).2.readbuf.byte).2.length =
        min (p.body.length - 2) 2 := by
  obtain ⟨c', hread, -, -⟩ := @readPacket_eq 80 (by decide) (fun _ => 1) (fun _ => le_refl 1)
    longSuback (by decide) ⟨⟨longSuback.bytes, 0⟩, Buffer.zero 80⟩ [] (List.append_nil _).symm
  have htype : (readPacket (fun _ => 1) (⟨⟨longSuback.bytes, 0⟩, Buffer.zero 80⟩ :
      Client 80)).1 = MsgType.suback := congrArg Prod.fst hread
  have hpos : 0 < (readPacket (fun _ => 1) (⟨⟨longSuback.bytes, 0⟩, Buffer.zero 80⟩ :
      Client 80)).1 := by
    rw [htype]
    decide
  obtain ⟨p, hstarts, -, -, hcodes⟩ := acknowledgement_accepted (by decide) (by decide) hpos
  exact ⟨p, hstarts, (hcodes htype 1).2⟩

end Uiso.Mqtt
