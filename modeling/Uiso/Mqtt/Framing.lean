/-
  Mqtt/Framing.lean --- how MQTT packets are read from the connection: `readPacket`
  and `decodePacket` of src/mqtt/MQTTClient.c over `uiso_mqtt_read` of MQTTuiso.c, and
  `MQTTPacket_encode` of the Paho library.

  The connection is a `Stream`.  `sl_Recv` returns whatever has arrived, up to the
  length it is asked for; `uiso_mqtt_read` asks until it has all it wants, or a call
  fails.  `readPacket` decodes the length of a packet byte by byte and writes it back in
  the form `MQTTPacket_encode` gives it.

  The timeouts are passed down and not used.  The keep-alive timer is left out.
-/
import Uiso.Foundation.Buffer
import Uiso.Foundation.Wire
import Mathlib.Tactic.Ring

set_option autoImplicit false

namespace Uiso.Mqtt

open Uiso.Foundation

/-! ## The functions -/

/-- `sl_Recv`: the length it is given is a `_i16`. -/
def slRecv (cuts : Nat → Int) (len : Int) (s : Stream) : List UInt8 × Stream :=
  s.recv cuts (len.bmod (2 ^ 16))

/-- The loop of `uiso_mqtt_read`, after the bytes `got`. -/
def readLoop (cuts : Nat → Int) (len : Nat) (got : List UInt8) (s : Stream) :
    List UInt8 × Stream :=
  let r := slRecv cuts (len - got.length) s
  if r.1 = [] then (got, r.2)
  else if (got ++ r.1).length < len then readLoop cuts len (got ++ r.1) r.2
  else (got ++ r.1, r.2)
termination_by len - got.length
decreasing_by
  rename_i hne hlt
  have hpos : 0 < (slRecv cuts (len - got.length) s).1.length := List.length_pos_iff.mpr hne
  simp only [List.length_append] at hlt ⊢
  omega

/-- `uiso_mqtt_read`: the bytes it puts into the buffer.  It returns how many they are. -/
def uisoMqttRead (cuts : Nat → Int) (len : Nat) (s : Stream) : List UInt8 × Stream :=
  readLoop cuts len [] s

/-- The loop of `decodePacket`, with the bytes of the length that may still follow. -/
def decodeLoop (cuts : Nat → Int) : Nat → Nat → Nat → Stream → (Nat × Nat) × Stream
  | 0, _, value, s => ((5, value), s)
  | left + 1, multiplier, value, s =>
      let r := uisoMqttRead cuts 1 s
      match r.1 with
      | [i] =>
          let value := value + (i &&& 127).toNat * multiplier
          if i &&& 128 = 0 then ((4 - left, value), r.2)
          else decodeLoop cuts left (multiplier * 128) value r.2
      | _ => ((4 - left, value), r.2)

/-- `decodePacket`: the number of bytes it has read, and the value. -/
def decodePacket (cuts : Nat → Int) (s : Stream) : (Nat × Nat) × Stream :=
  decodeLoop cuts 4 1 0 s

/-- `MQTTPacket_encode` -/
def mqttPacketEncode (length : Nat) : List UInt8 :=
  let d := UInt8.ofNat (length % 128)
  if 0 < length / 128 then (d ||| 0x80) :: mqttPacketEncode (length / 128) else [d]
termination_by length
decreasing_by omega

/-- The client: the connection, and the read buffer of `cap` bytes. -/
structure Client (cap : Nat) where
  stream : Stream
  readbuf : Buffer cap

/-- `BUFFER_OVERFLOW` -/
def bufferOverflow : Int := -2

/-- `c->readbuf_size - len`, a difference of `size_t`. -/
def roomAfter (cap len : Nat) : Nat := (cap + 2 ^ 32 - len) % 2 ^ 32

/-- The type of a packet, `header.bits.type`. -/
def headerType (header : UInt8) : Int := (header >>> 4).toNat

/-- `readPacket` -/
def readPacket {cap : Nat} (cuts : Nat → Int) (c : Client cap) : Int × Client cap :=
  let first := uisoMqttRead cuts 1 c.stream
  let readbuf := c.readbuf.writeAt 0 first.1
  if first.1.length ≠ 1 then (first.1.length, ⟨first.2, readbuf⟩)
  else
    let decoded := decodePacket cuts first.2
    let remLen := decoded.1.2
    let encoded := mqttPacketEncode remLen
    let readbuf := readbuf.writeAt 1 encoded
    let len := 1 + encoded.length
    if remLen > roomAfter cap len then (bufferOverflow, ⟨decoded.2, readbuf⟩)
    else if remLen = 0 then (headerType (readbuf.byte 0), ⟨decoded.2, readbuf⟩)
    else
      let rest := uisoMqttRead cuts remLen decoded.2
      let readbuf := readbuf.writeAt len rest.1
      if rest.1.length ≠ remLen then (0, ⟨rest.2, readbuf⟩)
      else (headerType (readbuf.byte 0), ⟨rest.2, readbuf⟩)

/-! ## Packets -/

/-- A packet: a header byte, the canonical form of the remaining length in at most four
bytes, and as many bytes as it says. -/
structure Packet where
  header : UInt8
  lengthBytes : List UInt8
  body : List UInt8
  canonical : Varint lengthBytes body.length
  short : lengthBytes.length ≤ 4

/-- The packet on the connection. -/
def Packet.bytes (p : Packet) : List UInt8 := [p.header] ++ p.lengthBytes ++ p.body

theorem Packet.length_bytes (p : Packet) :
    p.bytes.length = 1 + p.lengthBytes.length + p.body.length := by
  simp [Packet.bytes]
  omega

/-! ## Reading -/

/-- The loop receives what it asks for, whatever pieces it comes in. -/
theorem readLoop_eq {cuts : Nat → Int} (hcuts : Stream.Pieces cuts) {len : Nat}
    (hlen : len ≤ 32767) {got : List UInt8} {s : Stream} {pre post : List UInt8}
    (hrest : s.rest = pre ++ post) (hpre : pre ≠ []) (hgot : got.length + pre.length = len) :
    ∃ calls, readLoop cuts len got s = (got ++ pre, ⟨post, calls⟩) := by
  induction hk : pre.length using Nat.strongRecOn generalizing got s pre with
  | ind k ih =>
      have hlimit : slRecv cuts (len - got.length) s = s.recv cuts pre.length := by
        have hdiff : (len : Int) - got.length = pre.length := by omega
        rw [slRecv, hdiff, Int.bmod_eq_of_le (by omega) (by omega)]
      obtain ⟨hne, mid, hsplit, hmid⟩ := Stream.recv_split hcuts hrest hpre
      rw [readLoop, hlimit]
      simp only [hne, if_false]
      have hlength := congrArg List.length hsplit
      have hpos : 0 < (s.recv cuts pre.length).1.length := List.length_pos_iff.mpr hne
      rw [List.length_append] at hlength
      split
      · rename_i hmore
        rw [List.length_append] at hmore
        have hmidne : mid ≠ [] := by
          rintro rfl
          simp only [List.length_nil] at hlength
          omega
        have hgot' : (got ++ (s.recv cuts pre.length).1).length + mid.length = len := by
          rw [List.length_append]
          omega
        obtain ⟨calls, hloop⟩ := ih mid.length (by omega) hmid hmidne hgot' rfl
        refine ⟨calls, ?_⟩
        rw [hloop, List.append_assoc, ← hsplit]
      · rename_i hall
        rw [List.length_append] at hall
        have hmidnil : mid = [] := List.length_eq_zero_iff.mp (by omega)
        subst hmidnil
        rw [List.append_nil] at hsplit
        rw [List.nil_append] at hmid
        refine ⟨(s.recv cuts pre.length).2.calls, ?_⟩
        rw [← hsplit, ← hmid]

/-- `uiso_mqtt_read` receives the next bytes of the connection, as many as it was asked
for. -/
theorem uisoMqttRead_eq {cuts : Nat → Int} (hcuts : Stream.Pieces cuts) {s : Stream}
    {pre post : List UInt8} (hlen : pre.length ≤ 32767) (hrest : s.rest = pre ++ post)
    (hpre : pre ≠ []) : ∃ calls, uisoMqttRead cuts pre.length s = (pre, ⟨post, calls⟩) :=
  readLoop_eq hcuts hlen hrest hpre (Nat.zero_add _)

/-! ## The remaining length -/

/-- The loop decodes a number in canonical form, and reads no byte beyond it. -/
theorem decodeLoop_eq {cuts : Nat → Int} (hcuts : Stream.Pieces cuts) {bs post : List UInt8}
    {n : Nat} (h : Varint bs n) : ∀ (left multiplier value : Nat) (s : Stream),
    bs.length ≤ left → s.rest = bs ++ post → ∃ len calls,
      decodeLoop cuts left multiplier value s =
        ((len, value + n * multiplier), ⟨post, calls⟩) := by
  induction h with
  | last b hb =>
      intro left multiplier value s hleft hrest
      rw [List.length_singleton] at hleft
      obtain ⟨left, rfl⟩ : ∃ k, left = k + 1 := ⟨left - 1, by omega⟩
      obtain ⟨calls, hread⟩ := uisoMqttRead_eq hcuts (by simp) hrest (List.cons_ne_nil b [])
      refine ⟨4 - left, calls, ?_⟩
      have hlow : b &&& 128 = 0 := (and_128_eq_zero_iff b).mpr hb
      have hvalue : (b &&& 127).toNat = b.toNat := by
        rw [toNat_and_127]
        omega
      rw [List.length_singleton] at hread
      simp only [decodeLoop, hread, hlow, if_true, hvalue]
  | @more bs n b hb hbs hn ih =>
      intro left multiplier value s hleft hrest
      rw [List.length_cons] at hleft
      obtain ⟨left, rfl⟩ : ∃ k, left = k + 1 := ⟨left - 1, by omega⟩
      have hfirst : s.rest = [b] ++ (bs ++ post) := hrest
      obtain ⟨calls, hread⟩ := uisoMqttRead_eq hcuts (by simp) hfirst (List.cons_ne_nil b [])
      obtain ⟨len, calls', hrec⟩ := ih left (multiplier * 128)
        (value + (b &&& 127).toNat * multiplier) ⟨bs ++ post, calls⟩ (by omega) rfl
      have hhigh : b &&& 128 ≠ 0 := by
        rw [ne_eq, and_128_eq_zero_iff]
        omega
      have hbound := b.toNat_lt
      have hvalue : (b &&& 127).toNat = b.toNat - 128 := by
        rw [toNat_and_127]
        omega
      have hsum : value + (b.toNat - 128) * multiplier + n * (multiplier * 128) =
          value + (b.toNat - 128 + 128 * n) * multiplier := by ring
      refine ⟨len, calls', ?_⟩
      rw [hvalue, hsum] at hrec
      rw [List.length_singleton] at hread
      simp only [decodeLoop, hread, hhigh, if_false, hvalue]
      exact hrec

/-- `MQTTPacket_encode` gives the canonical form. -/
theorem mqttPacketEncode_eq {bs : List UInt8} {n : Nat} (h : Varint bs n) :
    mqttPacketEncode n = bs := by
  induction h with
  | last b hb =>
      have hdiv : ¬0 < b.toNat / 128 := by omega
      rw [mqttPacketEncode]
      simp only [hdiv, if_false, Nat.mod_eq_of_lt hb, UInt8.ofNat_toNat]
  | @more bs n b hb hbs hn ih =>
      have hbound := b.toNat_lt
      have hdiv : (b.toNat - 128 + 128 * n) / 128 = n := by omega
      have hmod : (b.toNat - 128 + 128 * n) % 128 = b.toNat - 128 := by omega
      have hbyte : UInt8.ofNat (b.toNat - 128) ||| 128 = b := by
        apply UInt8.toNat_inj.mp
        rw [toNat_or_128 (by omega)]
        omega
      rw [mqttPacketEncode]
      simp only [hdiv, hmod, hn, if_true, ih]
      rw [hbyte]

/-! ## Whole packets -/

/-- A packet that fits the buffer leaves room for its body. -/
theorem roomAfter_eq {cap len : Nat} (hlen : len ≤ cap) (hcap : cap ≤ 32767) :
    roomAfter cap len = cap - len := by
  unfold roomAfter
  omega

/-- `readPacket` reads the packet at the front of the connection, and nothing behind it. -/
theorem readPacket_eq {cap : Nat} (hcap : cap ≤ 32767) {cuts : Nat → Int}
    (hcuts : Stream.Pieces cuts) (p : Packet) (hfit : p.bytes.length ≤ cap) {c : Client cap}
    {post : List UInt8} (hrest : c.stream.rest = p.bytes ++ post) :
    ∃ c' : Client cap, readPacket cuts c = (headerType p.header, c') ∧
      c'.stream.rest = post ∧ c'.readbuf.Starts p.bytes := by
  rw [p.length_bytes] at hfit
  have hheader : c.stream.rest = [p.header] ++ (p.lengthBytes ++ (p.body ++ post)) := by
    simpa [Packet.bytes] using hrest
  obtain ⟨calls₁, hfirst⟩ := uisoMqttRead_eq hcuts (by simp) hheader (List.cons_ne_nil _ [])
  obtain ⟨len, calls₂, hdecode⟩ := decodeLoop_eq hcuts p.canonical 4 1 0
    ⟨p.lengthBytes ++ (p.body ++ post), calls₁⟩ p.short rfl
  rw [Nat.zero_add, Nat.mul_one] at hdecode
  have hencode := mqttPacketEncode_eq p.canonical
  have hroom : roomAfter cap (1 + p.lengthBytes.length) = cap - (1 + p.lengthBytes.length) :=
    roomAfter_eq (by omega) hcap
  -- The buffer holds the header, then the header and the length.
  have hstart₁ : (c.readbuf.writeAt 0 [p.header]).Starts [p.header] :=
    Buffer.Starts.writeAt (s := []) rfl (by simp; omega)
  have hstart₂ : ((c.readbuf.writeAt 0 [p.header]).writeAt 1 p.lengthBytes).Starts
      ([p.header] ++ p.lengthBytes) := hstart₁.writeAt (by simp; omega)
  rw [List.length_singleton] at hfirst
  unfold readPacket
  simp only [hfirst, List.length_singleton, ne_eq, not_true, if_false, decodePacket, hdecode,
    hencode, hroom]
  rw [if_neg (by omega)]
  by_cases hbody : p.body = []
  · have hbytes : p.bytes = [p.header] ++ p.lengthBytes := by simp [Packet.bytes, hbody]
    have htype := Buffer.Starts.byte_zero (x := p.header) (s := p.lengthBytes) hstart₂ (by omega)
    simp only [hbody, List.length_nil, if_true, List.nil_append, htype, hbytes]
    exact ⟨_, rfl, rfl, hstart₂⟩
  · have hpos : 0 < p.body.length := List.length_pos_iff.mpr hbody
    obtain ⟨calls₃, hread⟩ := uisoMqttRead_eq hcuts (s := ⟨p.body ++ post, calls₂⟩)
      (by omega) rfl hbody
    have hstart₃ := hstart₂.writeAt (t := p.body) (by simp; omega)
    rw [List.length_append, List.length_singleton] at hstart₃
    have htype := Buffer.Starts.byte_zero (x := p.header) (s := p.lengthBytes ++ p.body)
      hstart₃ (by simp; omega)
    rw [if_neg (by omega)]
    simp only [hread, not_true, if_false, htype]
    exact ⟨_, rfl, rfl, hstart₃⟩

/-- The client after some calls of `readPacket`. -/
def afterReads {cap : Nat} (cuts : Nat → Int) : Nat → Client cap → Client cap
  | 0, c => c
  | n + 1, c => afterReads cuts n (readPacket cuts c).2

/-- Whatever pieces the packets of a connection come in, the n-th call of `readPacket` returns
the type of the n-th packet and leaves the bytes of this packet at the front of the buffer,
and on the connection precisely the packets after it. -/
theorem nth_readPacket {cap : Nat} (hcap : cap ≤ 32767) {cuts : Nat → Int}
    (hcuts : Stream.Pieces cuts) (packets : List Packet)
    (hfit : ∀ p ∈ packets, p.bytes.length ≤ cap) (c : Client cap)
    (hrest : c.stream.rest = packets.flatMap Packet.bytes) (n : Nat) (p : Packet)
    (hp : packets[n]? = some p) :
    let r := readPacket cuts (afterReads cuts n c)
    r.1 = headerType p.header ∧ r.2.readbuf.Starts p.bytes ∧
      r.2.stream.rest = (packets.drop (n + 1)).flatMap Packet.bytes := by
  induction n generalizing packets c with
  | zero =>
      cases packets with
      | nil => cases hp
      | cons q packets =>
          obtain rfl : q = p := Option.some.inj hp
          rw [List.flatMap_cons] at hrest
          obtain ⟨c', hread, hleft, hstarts⟩ :=
            readPacket_eq hcap hcuts q (hfit q List.mem_cons_self) hrest
          simp only [afterReads, hread]
          exact ⟨trivial, hstarts, hleft⟩
  | succ n ih =>
      cases packets with
      | nil => cases hp
      | cons q packets =>
          rw [List.flatMap_cons] at hrest
          obtain ⟨c', hread, hleft, _⟩ :=
            readPacket_eq hcap hcuts q (hfit q List.mem_cons_self) hrest
          have hnext := ih packets (fun p hp => hfit p (List.mem_cons_of_mem q hp)) c' hleft hp
          simpa only [afterReads, hread, List.drop_succ_cons] using hnext

/-- A CONNACK. -/
def connack : Packet := ⟨0x20, [2], [0, 0], .last 2 (by decide), by decide⟩

/-- A PINGRESP. -/
def pingresp : Packet := ⟨0xD0, [0], [], .last 0 (by decide), by decide⟩

/-- The buffer of the client is that of `mqtt_client.c`; the two packets come one byte at a
time. -/
theorem second_readPacket_pingresp :
    let c : Client 80 := ⟨⟨[0x20, 2, 0, 0, 0xD0, 0], 0⟩, Buffer.zero 80⟩
    (readPacket (fun _ => 1) (afterReads (fun _ => 1) 1 c)).1 = 13 :=
  (nth_readPacket (by decide) (fun _ => le_refl 1) [connack, pingresp] (by decide)
    ⟨⟨[0x20, 2, 0, 0, 0xD0, 0], 0⟩, Buffer.zero 80⟩ rfl 1 pingresp rfl).1

end Uiso.Mqtt
