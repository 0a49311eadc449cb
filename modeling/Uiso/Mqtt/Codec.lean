/-
  Mqtt/Codec.lean --- MQTT packets as the Paho library writes and reads them: MQTTPacket.c,
  MQTTSerializePublish.c, MQTTDeserializePublish.c, MQTTConnectClient.c,
  MQTTSubscribeClient.c and MQTTUnsubscribeClient.c.

  A serialiser checks the length of the send buffer and fills it from the start: its result,
  and the bytes it has written.  A deserialiser reads the memory from `c->readbuf` on; an
  output that it does not set is `none`.

  All the deserialisers begin alike, with the header byte and the remaining length, and all
  of them keep the number of bytes of this length in `rc`.  When the body is too short they
  leave with that.
-/
import Uiso.Mqtt.Cycle

set_option autoImplicit false

namespace Uiso.Mqtt

open Uiso.Foundation

/-! ## Writing -/

/-- `MQTTPACKET_BUFFER_TOO_SHORT` -/
def bufferTooShort : Int := -2

/-- The header byte: `type`, `dup`, `qos` and `retain` of `MQTTHeader`. -/
def headerByte (type : Nat) (dup : Bool) (qos : Nat) (retain : Bool) : UInt8 :=
  UInt8.ofNat (type % 16 * 16 + dup.toNat * 8 + qos % 4 * 2 + retain.toNat)

/-- `writeInt` -/
def writeInt (n : Nat) : List UInt8 := [UInt8.ofNat (n / 256), UInt8.ofNat (n % 256)]

/-- `writeCString` -/
def writeCString (string : List UInt8) : List UInt8 := writeInt string.length ++ string

/-- `MQTTPacket_len` -/
def mqttPacketLen (remLen : Nat) : Nat :=
  let remLen := remLen + 1
  if remLen < 128 then remLen + 1
  else if remLen < 16384 then remLen + 2
  else if remLen < 2097151 then remLen + 3
  else remLen + 4

/-- What the serialisers of packets with a body have in common: the check of the length, and
the header byte, the remaining length and the body. -/
def serialize (buflen remLen : Nat) (header : UInt8) (body : List UInt8) : Int × List UInt8 :=
  if mqttPacketLen remLen > buflen then (bufferTooShort, [])
  else
    let bytes := header :: mqttPacketEncode remLen ++ body
    (bytes.length, bytes)

/-- `MQTTSerialize_publishLength` -/
def mqttSerializePublishLength (qos topicLen payloadlen : Nat) : Nat :=
  2 + topicLen + payloadlen + if 0 < qos then 2 else 0

/-- `MQTTSerialize_publish` -/
def mqttSerializePublish (buflen : Nat) (dup : Bool) (qos : Nat) (retained : Bool)
    (packetid : Nat) (topicName payload : List UInt8) : Int × List UInt8 :=
  serialize buflen (mqttSerializePublishLength qos topicName.length payload.length)
    (headerByte 3 dup qos retained)
    (writeCString topicName ++ (if 0 < qos then writeInt packetid else []) ++ payload)

/-- `MQTTSerialize_ack` -/
def mqttSerializeAck (buflen packettype : Nat) (dup : Bool) (packetid : Nat) :
    Int × List UInt8 :=
  if buflen < 4 then (bufferTooShort, [])
  else
    let bytes := headerByte packettype dup (if packettype = 6 then 1 else 0) false ::
      mqttPacketEncode 2 ++ writeInt packetid
    (bytes.length, bytes)

/-- `MQTTSerialize_zero`, for `MQTTSerialize_pingreq` and `MQTTSerialize_disconnect` -/
def mqttSerializeZero (buflen packettype : Nat) : Int × List UInt8 :=
  if buflen < 2 then (bufferTooShort, [])
  else
    let bytes := headerByte packettype false 0 false :: mqttPacketEncode 0
    (bytes.length, bytes)

/-- `MQTTSerialize_subscribe`, of one topic filter -/
def mqttSerializeSubscribe (buflen packetid : Nat) (topicFilter : List UInt8) (qos : Nat) :
    Int × List UInt8 :=
  serialize buflen (2 + (2 + topicFilter.length + 1)) (headerByte 8 false 1 false)
    (writeInt packetid ++ (writeCString topicFilter ++ [UInt8.ofNat qos]))

/-- `MQTTSerialize_unsubscribe`, of one topic filter -/
def mqttSerializeUnsubscribe (buflen packetid : Nat) (topicFilter : List UInt8) :
    Int × List UInt8 :=
  serialize buflen (2 + (2 + topicFilter.length)) (headerByte 10 false 1 false)
    (writeInt packetid ++ writeCString topicFilter)

/-- `MQTTPacket_willOptions` -/
structure WillOptions where
  topicName : List UInt8
  message : List UInt8
  retained : Bool
  qos : Nat

/-- `MQTTPacket_connectData` -/
structure ConnectData where
  mqttVersion : Nat
  clientID : List UInt8
  keepAliveInterval : Nat
  cleansession : Bool
  will : Option WillOptions
  username : Option (List UInt8)
  password : Option (List UInt8)

/-- `MQTTSerialize_connectLength` -/
def mqttSerializeConnectLength (o : ConnectData) : Nat :=
  (if o.mqttVersion = 3 then 12 else if o.mqttVersion = 4 then 10 else 0) +
    (o.clientID.length + 2) +
    (match o.will with
      | some w => w.topicName.length + 2 + w.message.length + 2
      | none => 0) +
    (match o.username with
      | some s => s.length + 2
      | none => 0) +
    (match o.password with
      | some s => s.length + 2
      | none => 0)

/-- `MQTTConnectFlags` -/
def connectFlags (o : ConnectData) : UInt8 :=
  UInt8.ofNat (o.username.isSome.toNat * 128 + o.password.isSome.toNat * 64 +
    (match o.will with
      | some w => w.retained.toNat * 32 + w.qos % 4 * 8 + 4
      | none => 0) + o.cleansession.toNat * 2)

/-- `MQTTSerialize_connect` -/
def mqttSerializeConnect (buflen : Nat) (o : ConnectData) : Int × List UInt8 :=
  serialize buflen (mqttSerializeConnectLength o) (headerByte 1 false 0 false)
    -- "MQTT" and 4, or "MQIsdp" and 3
    ((if o.mqttVersion = 4 then writeCString [77, 81, 84, 84] ++ [4]
        else writeCString [77, 81, 73, 115, 100, 112] ++ [3]) ++
      [connectFlags o] ++ writeInt o.keepAliveInterval ++ writeCString o.clientID ++
      (match o.will with
        | some w => writeCString w.topicName ++ writeCString w.message
        | none => []) ++
      (match o.username with
        | some s => writeCString s
        | none => []) ++
      (match o.password with
        | some s => writeCString s
        | none => []))

/-! ## Reading -/

/-- `header.bits.dup` -/
def headerDup (header : UInt8) : Bool := header &&& 8 ≠ 0

/-- `header.bits.retain` -/
def headerRetain (header : UInt8) : Bool := header &&& 1 ≠ 0

/-- `readInt` -/
def readInt (mem : Nat → UInt8) (pos : Nat) : Nat :=
  256 * (mem pos).toNat + (mem (pos + 1)).toNat

/-- The loop of `MQTTPacket_decode` over a buffer, behind `len` bytes, of which `left` may
still follow. -/
def decodeBufLoop (mem : Nat → UInt8) (pos : Nat) : Nat → Nat → Nat → Nat → Nat × Nat
  | 0, len, _, value => (len + 1, value)
  | left + 1, len, multiplier, value =>
      let c := mem (pos + len)
      let value := value + (c &&& 127).toNat * multiplier
      if c &&& 128 = 0 then (len + 1, value)
      else decodeBufLoop mem pos left (len + 1) (multiplier * 128) value

/-- `MQTTPacket_decodeBuf`: the number of bytes, and the value. -/
def mqttPacketDecodeBuf (mem : Nat → UInt8) (pos : Nat) : Nat × Nat :=
  decodeBufLoop mem pos 4 0 1 0

/-- Where the deserialisers stand behind the remaining length: the number of its bytes, which
is in `rc`, and `curdata` and `enddata`. -/
structure Opened where
  rc : Nat
  curdata : Nat
  enddata : Nat

/-- How the deserialisers begin. -/
def openPacket (mem : Nat → UInt8) : Opened :=
  let r := mqttPacketDecodeBuf mem 1
  ⟨r.1, 1 + r.1, 1 + r.1 + r.2⟩

/-- `MQTTLenString`, `data` as an offset in the memory. -/
structure LenString where
  len : Option Nat
  data : Option Nat
  deriving DecidableEq, Repr

/-- `readMQTTLenString`: the string, and where `*pptr` is behind it if it succeeds. -/
def readMqttLenString (mem : Nat → UInt8) (pos enddata : Nat) : LenString × Option Nat :=
  if pos + 1 < enddata then
    let len := readInt mem pos
    if pos + 2 + len ≤ enddata then (⟨some len, some (pos + 2)⟩, some (pos + 2 + len))
    else (⟨some len, none⟩, none)
  else (⟨none, none⟩, none)

/-- The result and the outputs of `MQTTDeserialize_publish`; `payloadlen` as `cycle`
initialises it. -/
structure PublishData where
  rc : Int
  dup : Option Bool
  qos : Option Nat
  retained : Option Bool
  packetid : Option Nat
  topicName : LenString
  payload : Option Nat
  payloadlen : Int
  deriving DecidableEq, Repr

/-- `MQTTDeserialize_publish` -/
def mqttDeserializePublish (mem : Nat → UInt8) : PublishData :=
  if headerType (mem 0) ≠ MsgType.publish then
    ⟨0, none, none, none, none, ⟨none, none⟩, none, 0⟩
  else
    let dup := some (headerDup (mem 0))
    let qos := headerQos (mem 0)
    let retained := some (headerRetain (mem 0))
    let o := openPacket mem
    match readMqttLenString mem o.curdata o.enddata with
    | (topicName, none) => ⟨o.rc, dup, some qos, retained, none, topicName, none, 0⟩
    | (topicName, some curdata) =>
        if 0 < qos then
          ⟨1, dup, some qos, retained, some (readInt mem curdata), topicName, some (curdata + 2),
            o.enddata - (curdata + 2 : Nat)⟩
        else ⟨1, dup, some qos, retained, none, topicName, some curdata, o.enddata - curdata⟩

/-- `MQTTDeserialize_ack`: its result, and the packet identifier. -/
def mqttDeserializeAck (mem : Nat → UInt8) : Int × Option Nat :=
  let o := openPacket mem
  if o.enddata - o.curdata < 2 then (o.rc, none) else (1, some (readInt mem o.curdata))

/-- `MQTTDeserialize_connack`: its result, and `sessionPresent` and `connack_rc`. -/
def mqttDeserializeConnack (mem : Nat → UInt8) : Int × Option (Bool × UInt8) :=
  if headerType (mem 0) ≠ MsgType.connack then (0, none)
  else
    let o := openPacket mem
    if o.enddata - o.curdata < 2 then (o.rc, none)
    else (1, some (mem o.curdata &&& 1 ≠ 0, mem (o.curdata + 1)))

/-- The loop of `MQTTDeserialize_suback`, with `*count` and the codes that are left: its
result, and what it writes to `grantedQoSs[*count]` and the elements behind it. -/
def subackLoop (maxcount : Nat) : Nat → List UInt8 → Int × List UInt8
  | _, [] => (1, [])
  | count, code :: codes =>
      if count > maxcount then (-1, [])
      else
        let rest := subackLoop maxcount (count + 1) codes
        (rest.1, code :: rest.2)

/-- `MQTTDeserialize_suback`: its result, and what it writes to `grantedQoSs`. -/
def mqttDeserializeSuback (maxcount : Nat) (mem : Nat → UInt8) : Int × List UInt8 :=
  if headerType (mem 0) ≠ MsgType.suback then (0, [])
  else
    let o := openPacket mem
    let left := o.enddata - o.curdata
    if left < 2 then (o.rc, [])
    else subackLoop maxcount 0 (slice mem (o.curdata + 2) (left - 2))

/-- `MQTTDeserialize_unsuback` -/
def mqttDeserializeUnsuback (mem : Nat → UInt8) : Int × Option Nat :=
  let r := mqttDeserializeAck mem
  (if headerType (mem 0) = 11 then 1 else r.1, r.2)

/-! ## Bytes in memory -/

/-- The memory holds some bytes from a position on. -/
def Holds (mem : Nat → UInt8) (pos : Nat) (bytes : List UInt8) : Prop :=
  slice mem pos bytes.length = bytes

theorem holds_append {mem : Nat → UInt8} {pos : Nat} {front back : List UInt8} :
    Holds mem pos (front ++ back) ↔ Holds mem pos front ∧ Holds mem (pos + front.length) back := by
  rw [Holds, List.length_append, ← slice_append]
  constructor
  · intro h
    exact List.append_inj h (length_slice mem pos front.length)
  · rintro ⟨hfront, hback⟩
    rw [hfront, hback]

theorem holds_cons {mem : Nat → UInt8} {pos : Nat} {b : UInt8} {bytes : List UInt8} :
    Holds mem pos (b :: bytes) ↔ mem pos = b ∧ Holds mem (pos + 1) bytes := by
  rw [← List.singleton_append, holds_append]
  simp [Holds, slice]

/-- The front of a buffer in its memory. -/
theorem Holds.of_starts {cap : Nat} {buf : Buffer cap} {bytes : List UInt8}
    (h : buf.Starts bytes) (hfit : bytes.length ≤ cap) : Holds buf.byte 0 bytes := by
  apply List.ext_getElem?
  intro i
  by_cases hi : i < bytes.length
  · rw [(Buffer.starts_iff hfit).mp h i hi]
    simp [slice, hi]
  · rw [List.getElem?_eq_none (by rw [length_slice]; omega), List.getElem?_eq_none (by omega)]

theorem readInt_of_holds {mem : Nat → UInt8} {pos : Nat} {high low : UInt8} {bytes : List UInt8}
    (h : Holds mem pos (high :: low :: bytes)) :
    readInt mem pos = 256 * high.toNat + low.toNat := by
  rw [holds_cons, holds_cons] at h
  rw [readInt, h.1, h.2.1]

theorem readInt_writeInt {mem : Nat → UInt8} {pos n : Nat} (hn : n < 65536)
    (h : Holds mem pos (writeInt n)) : readInt mem pos = n := by
  have hhigh : n / 256 < 2 ^ 8 := by omega
  have hlow : n % 256 < 2 ^ 8 := by omega
  rw [readInt_of_holds h, UInt8.toNat_ofNat_of_lt' hhigh, UInt8.toNat_ofNat_of_lt' hlow]
  omega

theorem length_writeInt (n : Nat) : (writeInt n).length = 2 := rfl

theorem length_writeCString (s : List UInt8) : (writeCString s).length = 2 + s.length := by
  rw [writeCString, List.length_append, length_writeInt]

/-! ## The remaining length -/

/-- The form that `MQTTPacket_encode` gives a number is the canonical one. -/
theorem varint_mqttPacketEncode (n : Nat) : Varint (mqttPacketEncode n) n := by
  induction n using Nat.strongRecOn with
  | ind n ih =>
      have hdigit : n % 128 < 128 := Nat.mod_lt n (by decide)
      rw [mqttPacketEncode]
      split
      · rename_i hmore
        have hrest := ih (n / 128) (by omega)
        have hbyte : (UInt8.ofNat (n % 128) ||| 0x80).toNat = n % 128 + 128 := toNat_or_128 hdigit
        have hvalue : n = (UInt8.ofNat (n % 128) ||| 0x80).toNat - 128 + 128 * (n / 128) := by
          omega
        have hform := Varint.more (UInt8.ofNat (n % 128) ||| 0x80) (by omega) hrest hmore
        rwa [← hvalue] at hform
      · rename_i hlast
        have hbyte : (UInt8.ofNat (n % 128)).toNat = n := by
          rw [UInt8.toNat_ofNat_of_lt' (by omega : n % 128 < 2 ^ 8)]
          omega
        have hform := Varint.last (UInt8.ofNat (n % 128)) (by omega)
        rwa [hbyte] at hform

/-- How many bytes it takes. -/
theorem length_mqttPacketEncode_le {n k : Nat} (hk : 0 < k) (hn : n < 128 ^ k) :
    (mqttPacketEncode n).length ≤ k := by
  induction k generalizing n with
  | zero => exact absurd hk (by decide)
  | succ k ih =>
      rw [mqttPacketEncode]
      split
      · rename_i hmore
        have hkpos : 0 < k := by
          by_contra hzero
          obtain rfl : k = 0 := by omega
          omega
        have hdiv : n / 128 < 128 ^ k :=
          Nat.div_lt_of_lt_mul (by rwa [Nat.mul_comm, ← Nat.pow_succ])
        have hrest := ih hkpos hdiv
        rw [List.length_cons]
        omega
      · simp

theorem length_mqttPacketEncode_eq_one_iff (n : Nat) :
    (mqttPacketEncode n).length = 1 ↔ n < 128 := by
  rw [mqttPacketEncode]
  split
  · rename_i hmore
    have hpos : (mqttPacketEncode (n / 128)) ≠ [] := by
      rw [mqttPacketEncode]
      split <;> simp
    have := List.length_pos_iff.mpr hpos
    rw [List.length_cons]
    omega
  · simp
    omega

/-- The length of a packet in one byte: its body is short. -/
theorem Packet.length_lengthBytes_eq_one_iff (p : Packet) :
    p.lengthBytes.length = 1 ↔ p.body.length < 128 := by
  rw [← mqttPacketEncode_eq p.canonical, length_mqttPacketEncode_eq_one_iff]

/-- A number in canonical form is read back from the buffer. -/
theorem decodeBufLoop_eq {mem : Nat → UInt8} {pos : Nat} {bs : List UInt8} {n : Nat}
    (h : Varint bs n) : ∀ left len multiplier value : Nat, bs.length ≤ left →
      Holds mem (pos + len) bs →
      decodeBufLoop mem pos left len multiplier value =
        (len + bs.length, value + n * multiplier) := by
  induction h with
  | last b hb =>
      intro left len multiplier value hleft hmem
      obtain ⟨left, rfl⟩ : ∃ k, left = k + 1 := ⟨left - 1, by simp at hleft; omega⟩
      have hlow : b &&& 128 = 0 := (and_128_eq_zero_iff b).mpr hb
      have hvalue : (b &&& 127).toNat = b.toNat := by
        rw [toNat_and_127]
        omega
      simp only [decodeBufLoop, (holds_cons.mp hmem).1, hlow, if_true, hvalue,
        List.length_singleton]
  | @more bs n b hb hbs hn ih =>
      intro left len multiplier value hleft hmem
      rw [List.length_cons] at hleft
      obtain ⟨left, rfl⟩ : ∃ k, left = k + 1 := ⟨left - 1, by omega⟩
      rw [holds_cons] at hmem
      have hhigh : b &&& 128 ≠ 0 := by
        rw [ne_eq, and_128_eq_zero_iff]
        omega
      have hvalue : (b &&& 127).toNat = b.toNat - 128 := by
        have := b.toNat_lt
        rw [toNat_and_127]
        omega
      simp only [decodeBufLoop, hmem.1, hhigh, if_false, hvalue]
      rw [ih left (len + 1) (multiplier * 128) _ (by omega) hmem.2, List.length_cons]
      have hlen : len + 1 + bs.length = len + (bs.length + 1) := by omega
      have hsum : value + (b.toNat - 128) * multiplier + n * (multiplier * 128) =
          value + (b.toNat - 128 + 128 * n) * multiplier := by ring
      rw [hlen, hsum]

/-- The deserialisers on a packet: where its body is. -/
theorem openPacket_eq {mem : Nat → UInt8} {p : Packet} (h : Holds mem 0 p.bytes) :
    openPacket mem = ⟨p.lengthBytes.length, 1 + p.lengthBytes.length,
      1 + p.lengthBytes.length + p.body.length⟩ := by
  have hlength : Holds mem (1 + 0) p.lengthBytes := by
    have hall := h
    rw [Packet.bytes, holds_append, holds_append] at hall
    simpa using hall.1.2
  rw [openPacket, mqttPacketDecodeBuf, decodeBufLoop_eq p.canonical 4 0 1 0 p.short hlength]
  simp

theorem Packet.holds_header {mem : Nat → UInt8} {p : Packet} (h : Holds mem 0 p.bytes) :
    mem 0 = p.header := by
  rw [Packet.bytes, List.append_assoc, List.singleton_append, holds_cons] at h
  exact h.1

theorem Packet.holds_body {mem : Nat → UInt8} {p : Packet} (h : Holds mem 0 p.bytes) :
    Holds mem (1 + p.lengthBytes.length) p.body := by
  rw [Packet.bytes, holds_append] at h
  simpa [Nat.add_comm] using h.2

/-! ## What the deserialisers make of a packet -/

/-- A body has less than two bytes, or it begins with two. -/
theorem body_cases (body : List UInt8) :
    body.length < 2 ∨ ∃ high low rest, body = high :: low :: rest := by
  match body with
  | [] => exact .inl (by decide)
  | [_] => exact .inl (by simp)
  | high :: low :: rest => exact .inr ⟨high, low, rest, rfl⟩

/-- The number in the first two bytes of a body. -/
def leadingInt : List UInt8 → Option Nat
  | high :: low :: _ => some (256 * high.toNat + low.toNat)
  | _ => none

theorem leadingInt_of_short {body : List UInt8} (h : body.length < 2) : leadingInt body = none := by
  match body, h with
  | [], _ => rfl
  | [_], _ => rfl

theorem leadingInt_eq_none_iff (body : List UInt8) : leadingInt body = none ↔ body.length < 2 := by
  rcases body_cases body with hshort | ⟨high, low, rest, rfl⟩
  · simp [leadingInt_of_short hshort, hshort]
  · simp [leadingInt]

variable {mem : Nat → UInt8} {p : Packet}

/-- A body of less than two bytes is one whose length takes one byte. -/
theorem openPacket_of_short (h : Holds mem 0 p.bytes) (hshort : p.body.length < 2) :
    (openPacket mem).enddata - (openPacket mem).curdata < 2 ∧ (openPacket mem).rc = 1 := by
  have hone : p.lengthBytes.length = 1 := p.length_lengthBytes_eq_one_iff.mpr (by omega)
  rw [openPacket_eq h]
  exact ⟨by simpa using hshort, hone⟩

theorem openPacket_of_long (h : Holds mem 0 p.bytes) {high low : UInt8} {rest : List UInt8}
    (hbody : p.body = high :: low :: rest) :
    ¬(openPacket mem).enddata - (openPacket mem).curdata < 2 ∧
      (openPacket mem).enddata - (openPacket mem).curdata - 2 = rest.length ∧
      Holds mem (openPacket mem).curdata (high :: low :: rest) := by
  have hholds := p.holds_body h
  rw [openPacket_eq h, ← hbody, Nat.add_sub_cancel_left, hbody]
  exact ⟨by simp, by simp, hbody ▸ hholds⟩

/-- Without a packet identifier `MQTTDeserialize_ack` leaves with the number of bytes of the
length, which is then 1: it never fails. -/
theorem mqttDeserializeAck_eq (h : Holds mem 0 p.bytes) :
    mqttDeserializeAck mem = (1, leadingInt p.body) := by
  rcases body_cases p.body with hshort | ⟨high, low, rest, hbody⟩
  · obtain ⟨hleft, hrc⟩ := openPacket_of_short h hshort
    simp [mqttDeserializeAck, hleft, hrc, leadingInt_of_short hshort]
  · obtain ⟨hleft, -, hholds⟩ := openPacket_of_long h hbody
    simp [mqttDeserializeAck, hleft, readInt_of_holds hholds, hbody, leadingInt]

/-- Nor does `MQTTDeserialize_connack`. -/
theorem mqttDeserializeConnack_eq (h : Holds mem 0 p.bytes)
    (htype : headerType p.header = MsgType.connack) :
    (mqttDeserializeConnack mem).1 = 1 ∧
      (mqttDeserializeConnack mem).2.map Prod.snd = p.body.tail.head? := by
  simp only [mqttDeserializeConnack, p.holds_header h, htype, ne_eq, not_true, if_false]
  rcases body_cases p.body with hshort | ⟨flags, code, rest, hbody⟩
  · obtain ⟨hleft, hrc⟩ := openPacket_of_short h hshort
    have hnone : p.body.tail = [] := List.length_eq_zero_iff.mp (by simp; omega)
    simp [hleft, hrc, hnone]
  · obtain ⟨hleft, -, hholds⟩ := openPacket_of_long h hbody
    rw [holds_cons, holds_cons] at hholds
    simp only [hleft, if_false, hholds.2.1, hbody]
    exact ⟨trivial, rfl⟩

/-- `MQTTDeserialize_suback` on a packet. -/
theorem mqttDeserializeSuback_eq (maxcount : Nat) (h : Holds mem 0 p.bytes)
    (htype : headerType p.header = MsgType.suback) :
    mqttDeserializeSuback maxcount mem = subackLoop maxcount 0 (p.body.drop 2) := by
  simp only [mqttDeserializeSuback, p.holds_header h, htype, ne_eq, not_true, if_false]
  rcases body_cases p.body with hshort | ⟨high, low, rest, hbody⟩
  · obtain ⟨hleft, hrc⟩ := openPacket_of_short h hshort
    have hnone : p.body.drop 2 = [] := List.drop_eq_nil_of_le (by omega)
    simp [hleft, hrc, hnone, subackLoop]
  · obtain ⟨hleft, hcount, hholds⟩ := openPacket_of_long h hbody
    rw [holds_cons, holds_cons] at hholds
    have hcodes : slice mem ((openPacket mem).curdata + 2) rest.length = rest := hholds.2.2
    simp only [hleft, if_false, hcount, hcodes, hbody]
    rfl

/-- How many elements the loop of `MQTTDeserialize_suback` writes. -/
theorem length_subackLoop (maxcount count : Nat) (codes : List UInt8)
    (hcount : count ≤ maxcount + 1) :
    (subackLoop maxcount count codes).2.length = min codes.length (maxcount + 1 - count) := by
  induction codes generalizing count with
  | nil => simp [subackLoop]
  | cons code codes ih =>
      by_cases hfull : count > maxcount
      · simp only [subackLoop, hfull, if_true, List.length_nil]
        omega
      · have hrest := ih (count + 1) (by omega)
        simp only [subackLoop, hfull, if_false, List.length_cons, hrest]
        omega

/-- It fails if there is one code more. -/
theorem subackLoop_rc (maxcount count : Nat) (codes : List UInt8) (hcount : count ≤ maxcount + 1) :
    (subackLoop maxcount count codes).1 =
      if codes.length ≤ maxcount + 1 - count then 1 else -1 := by
  induction codes generalizing count with
  | nil => rfl
  | cons code codes ih =>
      by_cases hfull : count > maxcount
      · simp only [subackLoop, hfull, if_true, List.length_cons]
        rw [if_neg (by omega)]
      · have hrest := ih (count + 1) (by omega)
        simp only [subackLoop, hfull, if_false, List.length_cons, hrest]
        exact if_congr (by omega) rfl rfl

/-! ## Publications -/

/-- The topic of a `PUBLISH` and what follows it. -/
def splitTopic : List UInt8 → Option (List UInt8 × List UInt8)
  | high :: low :: rest =>
      let len := 256 * high.toNat + low.toNat
      if len ≤ rest.length then some (rest.take len, rest.drop len) else none
  | _ => none

theorem splitTopic_of_short {body : List UInt8} (h : body.length < 2) : splitTopic body = none := by
  match body, h with
  | [], _ => rfl
  | [_], _ => rfl

/-- `readMQTTLenString` at the start of a body that does not hold the topic it announces. -/
theorem readMqttLenString_of_none (h : Holds mem 0 p.bytes) (htopic : splitTopic p.body = none) :
    ∃ len, readMqttLenString mem (openPacket mem).curdata (openPacket mem).enddata =
      (⟨len, none⟩, none) := by
  rcases body_cases p.body with hshort | ⟨high, low, rest, hbody⟩
  · have hleft := (openPacket_of_short h hshort).1
    refine ⟨none, ?_⟩
    rw [readMqttLenString, if_neg (by omega)]
  · obtain ⟨hleft, hcount, hholds⟩ := openPacket_of_long h hbody
    have hlong : ¬256 * high.toNat + low.toNat ≤ rest.length := by
      intro hle
      simp [splitTopic, hbody, hle] at htopic
    refine ⟨some (256 * high.toNat + low.toNat), ?_⟩
    rw [readMqttLenString, if_pos (by omega), readInt_of_holds hholds]
    simp only
    rw [if_neg (by omega)]

/-- `readMQTTLenString` at the start of a body with a topic. -/
theorem readMqttLenString_of_some (h : Holds mem 0 p.bytes) {topic rest : List UInt8}
    (htopic : splitTopic p.body = some (topic, rest)) :
    readMqttLenString mem (openPacket mem).curdata (openPacket mem).enddata =
        (⟨some topic.length, some ((openPacket mem).curdata + 2)⟩,
          some ((openPacket mem).curdata + 2 + topic.length)) ∧
      Holds mem ((openPacket mem).curdata + 2) topic ∧
      Holds mem ((openPacket mem).curdata + 2 + topic.length) rest ∧
      (openPacket mem).enddata = (openPacket mem).curdata + 2 + topic.length + rest.length := by
  rcases body_cases p.body with hshort | ⟨high, low, tail, hbody⟩
  · rw [splitTopic_of_short hshort] at htopic
    cases htopic
  · obtain ⟨hleft, hcount, hholds⟩ := openPacket_of_long h hbody
    have hint := readInt_of_holds hholds
    rw [holds_cons, holds_cons] at hholds
    by_cases hle : 256 * high.toNat + low.toNat ≤ tail.length
    · simp only [splitTopic, hbody, hle, if_true, Option.some.injEq, Prod.mk.injEq] at htopic
      obtain ⟨rfl, rfl⟩ := htopic
      have hlen : (tail.take (256 * high.toNat + low.toNat)).length =
          256 * high.toNat + low.toNat := List.length_take_of_le hle
      have htail : Holds mem ((openPacket mem).curdata + 2)
          (tail.take (256 * high.toNat + low.toNat) ++
            tail.drop (256 * high.toNat + low.toNat)) := by
        rw [List.take_append_drop]
        exact hholds.2.2
      rw [holds_append] at htail
      refine ⟨?_, htail.1, htail.2, ?_⟩
      · rw [readMqttLenString, if_pos (by omega), hint, hlen]
        simp only
        rw [if_pos (by omega)]
      · rw [hlen, List.length_drop]
        omega
    · simp [splitTopic, hbody, hle] at htopic

/-- Without a topic `MQTTDeserialize_publish` leaves with the number of bytes of the length. -/
theorem mqttDeserializePublish_of_none (h : Holds mem 0 p.bytes)
    (htype : headerType p.header = MsgType.publish) (htopic : splitTopic p.body = none) :
    (mqttDeserializePublish mem).rc = p.lengthBytes.length ∧
      (mqttDeserializePublish mem).topicName.data = none ∧
      (mqttDeserializePublish mem).payloadlen = 0 := by
  obtain ⟨len, hread⟩ := readMqttLenString_of_none h htopic
  have hrc : (openPacket mem).rc = p.lengthBytes.length := by rw [openPacket_eq h]
  simp only [mqttDeserializePublish, p.holds_header h, htype, ne_eq, not_true, if_false, hread,
    hrc, and_self]

/-- With a topic it succeeds, whether or not there is a packet identifier behind it. -/
theorem mqttDeserializePublish_of_some (h : Holds mem 0 p.bytes)
    (htype : headerType p.header = MsgType.publish) {topic rest : List UInt8}
    (htopic : splitTopic p.body = some (topic, rest)) :
    ∃ pos, Holds mem pos topic ∧ Holds mem (pos + topic.length) rest ∧
      mqttDeserializePublish mem =
        let d : PublishData := ⟨1, some (headerDup p.header), some (headerQos p.header),
          some (headerRetain p.header), none, ⟨some topic.length, some pos⟩,
          some (pos + topic.length), rest.length⟩
        if 0 < headerQos p.header then
          { d with
            packetid := some (readInt mem (pos + topic.length))
            payload := some (pos + topic.length + 2)
            payloadlen := rest.length - 2 }
        else d := by
  obtain ⟨hread, hholds, hrest, hend⟩ := readMqttLenString_of_some h htopic
  refine ⟨(openPacket mem).curdata + 2, hholds, hrest, ?_⟩
  simp only [mqttDeserializePublish, p.holds_header h, htype, ne_eq, not_true, if_false, hread]
  split
  · simp only [PublishData.mk.injEq, true_and]
    omega
  · simp only [PublishData.mk.injEq, true_and]
    omega

/-- `MQTTDeserialize_publish` accepts a packet with its topic, and one whose length has one
byte: that number is in `rc` when it leaves without a topic. -/
theorem mqttDeserializePublish_accepts_iff (h : Holds mem 0 p.bytes)
    (htype : headerType p.header = MsgType.publish) :
    (mqttDeserializePublish mem).rc = 1 ↔ splitTopic p.body ≠ none ∨ p.body.length < 128 := by
  cases htopic : splitTopic p.body with
  | none =>
      rw [(mqttDeserializePublish_of_none h htype htopic).1, ← p.length_lengthBytes_eq_one_iff]
      simp
  | some split =>
      obtain ⟨pos, -, -, hdata⟩ := mqttDeserializePublish_of_some h htype htopic
      rw [hdata]
      split <;> simp

/-! ## Every packet that is read -/

/-- The value of a length of so many bytes. -/
theorem decodeLoop_le (cuts : Nat → Int) (left multiplier value : Nat) (s : Stream) :
    (decodeLoop cuts left multiplier value s).1.2 + multiplier ≤
      value + 128 ^ left * multiplier := by
  induction left generalizing multiplier value s with
  | zero => simp [decodeLoop]
  | succ left ih =>
      have hpow : 128 ^ (left + 1) * multiplier = 128 ^ left * (multiplier * 128) := by ring
      have hone : multiplier * 128 ≤ 128 ^ left * (multiplier * 128) :=
        Nat.le_mul_of_pos_left _ (Nat.pow_pos (by decide))
      rw [decodeLoop, hpow]
      split
      · rename_i i _
        have hdigit : (i &&& 127).toNat * multiplier ≤ 127 * multiplier := by
          apply Nat.mul_le_mul_right
          rw [toNat_and_127]
          omega
        split
        · simp only
          omega
        · have hrest := ih (multiplier * 128) (value + (i &&& 127).toNat * multiplier)
            (uisoMqttRead cuts 1 s).2
          simp only
          omega
      · simp only
        omega

/-- Whatever arrives: when `readPacket` returns a type, there is a packet of this type at the
front of the read buffer. -/
theorem readPacket_sound {cap : Nat} (hmin : 5 ≤ cap) (hcap : cap ≤ 32767) {cuts : Nat → Int}
    {c : Client cap} (hpos : 0 < (readPacket cuts c).1) : ∃ p : Packet, p.bytes.length ≤ cap ∧
      headerType p.header = (readPacket cuts c).1 ∧
      (readPacket cuts c).2.readbuf.Starts p.bytes := by
  rcases read_one cuts c.stream with ⟨hnil, -⟩ | ⟨b, s, hread, -⟩
  · rw [readPacket_of_nil hnil] at hpos
    exact absurd hpos (by decide)
  · -- The length is below 2 ^ 28, so that it takes at most four bytes when it is written back.
    have hsmall : (decodePacket cuts s).1.2 < 128 ^ 4 := by
      have := decodeLoop_le cuts 4 1 0 s
      rw [decodePacket]
      omega
    have hbytes := length_mqttPacketEncode_le (by decide) hsmall
    have hvarint := varint_mqttPacketEncode (decodePacket cuts s).1.2
    have hstart₁ : (c.readbuf.writeAt 0 [b]).Starts [b] :=
      Buffer.Starts.writeAt (s := []) rfl (by simp; omega)
    have hstart₂ := hstart₁.writeAt (t := mqttPacketEncode (decodePacket cuts s).1.2)
      (by simp; omega)
    rw [List.length_singleton] at hstart₂
    simp only [readPacket, hread, List.length_singleton, ne_eq, not_true, if_false] at hpos ⊢
    generalize decodePacket cuts s = decoded at *
    by_cases hroom : decoded.1.2 > roomAfter cap (1 + (mqttPacketEncode decoded.1.2).length)
    · simp [hroom, bufferOverflow] at hpos
    · have hfit : decoded.1.2 + (1 + (mqttPacketEncode decoded.1.2).length) ≤ cap := by
        rw [roomAfter_eq (by omega) hcap] at hroom
        omega
      simp only [hroom, if_false] at hpos ⊢
      by_cases hzero : decoded.1.2 = 0
      · have htype := Buffer.Starts.byte_zero (x := b) (s := mqttPacketEncode decoded.1.2) hstart₂
          (by omega)
        refine ⟨⟨b, mqttPacketEncode decoded.1.2, [], by simpa [hzero] using hvarint, hbytes⟩,
          ?_, ?_, ?_⟩
        · rw [Packet.length_bytes]
          simp
          omega
        · simp only [hzero, if_true] at htype ⊢
          rw [htype]
        · simpa only [hzero, if_true, Packet.bytes, List.append_nil] using hstart₂
      · simp only [hzero, if_false] at hpos ⊢
        by_cases hwhole : (uisoMqttRead cuts decoded.1.2 decoded.2).1.length = decoded.1.2
        · have hstart₃ := hstart₂.writeAt (t := (uisoMqttRead cuts decoded.1.2 decoded.2).1)
            (by simp; omega)
          rw [List.length_append, List.length_singleton] at hstart₃
          have htype := Buffer.Starts.byte_zero (x := b) (s := mqttPacketEncode decoded.1.2 ++
            (uisoMqttRead cuts decoded.1.2 decoded.2).1) hstart₃ (by simp; omega)
          refine ⟨⟨b, mqttPacketEncode decoded.1.2, (uisoMqttRead cuts decoded.1.2 decoded.2).1,
            by rwa [hwhole], hbytes⟩, ?_, ?_, ?_⟩
          · rw [Packet.length_bytes]
            simp only
            omega
          · simp only [hwhole, not_true, if_false]
            rw [htype]
          · simpa only [hwhole, not_true, if_false, Packet.bytes] using hstart₃
        · simp [hwhole] at hpos

end Uiso.Mqtt
