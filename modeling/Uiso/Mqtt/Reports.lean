/-
  Mqtt/Reports.lean --- what `sl_Recv` reports while a packet is read.

  `uiso_mqtt_read` returns the number of bytes it has received; the result of `sl_Recv`
  that made it stop is lost there.  This module keeps these results, for each call of
  `uiso_mqtt_read` that `readPacket` makes, and says what `readPacket` makes of them.

      readReports    : the results of `sl_Recv` in one call of `uiso_mqtt_read`
      packetReads    : the calls of `uiso_mqtt_read` in one call of `readPacket`
-/
import Uiso.Mqtt.Framing

set_option autoImplicit false

namespace Uiso.Mqtt

open Uiso.Foundation

/-! ## The results of sl_Recv -/

/-- `SL_EAGAIN` -/
def slEagain : Int := -11

/-- What `sl_Recv` returns: the number of bytes received, or else 0 for a connection that
was closed and a negative number for an error. -/
def slRecvResult (cuts : Nat → Int) (len : Int) (s : Stream) : Int :=
  let r := slRecv cuts len s
  if r.1 = [] then min (cuts s.calls) 0 else r.1.length

/-- A closed connection, or an error other than `SL_EAGAIN`. -/
def Dead (report : Int) : Prop := report ≤ 0 ∧ report ≠ slEagain

instance (report : Int) : Decidable (Dead report) := inferInstanceAs (Decidable (_ ∧ _))

/-- The results of `sl_Recv` in the loop of `uiso_mqtt_read`, after the bytes `got`. -/
def readReports (cuts : Nat → Int) (len : Nat) (got : List UInt8) (s : Stream) : List Int :=
  let r := slRecv cuts (len - got.length) s
  slRecvResult cuts (len - got.length) s ::
    if r.1 = [] then []
    else if (got ++ r.1).length < len then readReports cuts len (got ++ r.1) r.2
    else []
termination_by len - got.length
decreasing_by
  rename_i hne hlt
  have hpos : 0 < (slRecv cuts (len - got.length) s).1.length := List.length_pos_iff.mpr hne
  simp only [List.length_append] at hlt ⊢
  omega

theorem slRecvResult_of_nil {cuts : Nat → Int} {len : Int} {s : Stream}
    (h : (slRecv cuts len s).1 = []) : slRecvResult cuts len s ≤ 0 := by
  simp only [slRecvResult, h, if_true]
  exact Int.min_le_right _ _

theorem slRecvResult_of_ne_nil {cuts : Nat → Int} {len : Int} {s : Stream}
    (h : (slRecv cuts len s).1 ≠ []) : slRecvResult cuts len s = (slRecv cuts len s).1.length := by
  simp only [slRecvResult, h, if_false]

/-- `sl_Recv` receives no more than it is asked for. -/
theorem length_slRecv_le (cuts : Nat → Int) {len : Int} (hlen : 0 ≤ len) (s : Stream) :
    ((slRecv cuts len s).1.length : Int) ≤ len := by
  have hlimit : len.bmod (2 ^ 16) ≤ len := by
    rw [Int.bmod_def]
    split <;> omega
  simp only [slRecv, Stream.recv, List.length_take]
  omega

/-- A read receives less than it was asked for precisely if one of its calls reported no
byte. -/
theorem exists_report_le_zero_iff (cuts : Nat → Int) {len : Nat} (got : List UInt8) (s : Stream)
    (hgot : got.length < len) :
    (∃ r ∈ readReports cuts len got s, r ≤ 0) ↔ (readLoop cuts len got s).1.length ≠ len := by
  induction hk : len - got.length using Nat.strongRecOn generalizing got s with
  | ind k ih =>
      rw [readReports, readLoop]
      by_cases hnil : (slRecv cuts (len - got.length) s).1 = []
      · have hreport := slRecvResult_of_nil hnil
        simp only [hnil, if_true, List.mem_singleton, exists_eq_left]
        exact ⟨fun _ => Nat.ne_of_lt hgot, fun _ => hreport⟩
      · have hpos := List.length_pos_iff.mpr hnil
        have hreport := slRecvResult_of_ne_nil hnil
        have hhead : ¬slRecvResult cuts (len - got.length) s ≤ 0 := by omega
        by_cases hmore : (got ++ (slRecv cuts (len - got.length) s).1).length < len
        · have hless : len - (got ++ (slRecv cuts (len - got.length) s).1).length < k := by
            rw [List.length_append] at hmore ⊢
            omega
          have hrest := ih _ hless (got ++ (slRecv cuts (len - got.length) s).1)
            (slRecv cuts (len - got.length) s).2 hmore rfl
          simp only [hnil, if_false, hmore, if_true, List.mem_cons, exists_eq_or_imp, hhead,
            false_or, hrest]
        · have hall : (got ++ (slRecv cuts (len - got.length) s).1).length = len := by
            have hleft : (0 : Int) ≤ len - got.length := by omega
            have := length_slRecv_le cuts hleft s
            rw [List.length_append] at hmore ⊢
            omega
          simp only [hnil, if_false, hall, Nat.lt_irrefl, List.mem_singleton, exists_eq_left,
            hhead, ne_eq, not_true]

/-! ## One call of uiso_mqtt_read -/

/-- The arguments of a call of `uiso_mqtt_read`: the length, and the connection. -/
structure ReadCall where
  len : Nat
  stream : Stream

namespace ReadCall

/-- What the call returns. -/
def result (cuts : Nat → Int) (q : ReadCall) : Int := (uisoMqttRead cuts q.len q.stream).1.length

/-- The results of `sl_Recv` in the call. -/
def reports (cuts : Nat → Int) (q : ReadCall) : List Int := readReports cuts q.len [] q.stream

/-- `uiso_mqtt_read` never returns a negative number. -/
theorem result_nonneg (cuts : Nat → Int) (q : ReadCall) : 0 ≤ q.result cuts := Int.natCast_nonneg _

/-- A call returns less than it was asked for precisely if `sl_Recv` reported no byte. -/
theorem result_ne_len_iff (cuts : Nat → Int) {q : ReadCall} (hlen : 0 < q.len) :
    q.result cuts ≠ q.len ↔ ∃ r ∈ q.reports cuts, r ≤ 0 := by
  rw [ReadCall.reports, exists_report_le_zero_iff cuts [] q.stream hlen, ReadCall.result, ne_eq,
    Int.natCast_inj]
  rfl

end ReadCall

/-- A call for one byte: nothing and one report that says why, or one byte and the report
of it. -/
theorem read_one (cuts : Nat → Int) (s : Stream) :
    ((uisoMqttRead cuts 1 s).1 = [] ∧ ∃ r, r ≤ 0 ∧ (ReadCall.mk 1 s).reports cuts = [r]) ∨
      ∃ b s', uisoMqttRead cuts 1 s = ([b], s') ∧ (ReadCall.mk 1 s).reports cuts = [1] := by
  have hlimit : slRecv cuts ((1 : Nat) - ([] : List UInt8).length) s = slRecv cuts 1 s := rfl
  have hlength : (slRecv cuts 1 s).1.length ≤ 1 := by
    simp only [slRecv, Stream.recv, List.length_take]
    have : (1 : Int).bmod (2 ^ 16) = 1 := by decide
    omega
  rw [uisoMqttRead, readLoop, ReadCall.reports, readReports, hlimit]
  by_cases hnil : (slRecv cuts 1 s).1 = []
  · left
    simp only [hnil, if_true, true_and]
    exact ⟨_, slRecvResult_of_nil hnil, rfl⟩
  · right
    obtain ⟨b, hb⟩ : ∃ b, (slRecv cuts 1 s).1 = [b] :=
      List.length_eq_one_iff.mp (Nat.le_antisymm hlength (List.length_pos_iff.mpr hnil))
    have hreport : slRecvResult cuts ((1 : Nat) - ([] : List UInt8).length) s = 1 := by
      have := slRecvResult_of_ne_nil hnil
      rw [hb] at this
      exact this
    simp only [hb, hreport]
    exact ⟨b, (slRecv cuts 1 s).2, by simp, by simp⟩

/-- When `sl_Recv` fails, the call receives nothing, and there is nothing but the failure to
report. -/
theorem read_one_of_failure {cuts : Nat → Int} {s : Stream} (h : cuts s.calls ≤ 0) :
    (uisoMqttRead cuts 1 s).1 = [] ∧ (ReadCall.mk 1 s).reports cuts = [cuts s.calls] := by
  have hnone : (slRecv cuts ((1 : Nat) - ([] : List UInt8).length) s).1 = [] := by
    have hsize : (min (cuts s.calls) (((1 : Nat) - ([] : List UInt8).length : Int).bmod
        (2 ^ 16))).toNat = 0 := by omega
    rw [slRecv, Stream.recv, hsize]
    rfl
  rw [uisoMqttRead, readLoop, ReadCall.reports, readReports, slRecvResult]
  simp only [hnone, if_true, Int.min_eq_left h, and_self]

/-! ## The calls of readPacket -/

/-- The calls in the loop of `decodePacket`. -/
def lengthReads (cuts : Nat → Int) : Nat → Stream → List ReadCall
  | 0, _ => []
  | left + 1, s =>
      let r := uisoMqttRead cuts 1 s
      ⟨1, s⟩ ::
        match r.1 with
        | [i] => if i &&& 128 = 0 then [] else lengthReads cuts left r.2
        | _ => []

/-- The remaining length does not fit the read buffer: `rem_len > (c->readbuf_size - len)`. -/
def TooLong (cap remLen : Nat) : Prop :=
  remLen > roomAfter cap (1 + (mqttPacketEncode remLen).length)

instance (cap remLen : Nat) : Decidable (TooLong cap remLen) :=
  inferInstanceAs (Decidable (_ > _))

/-- The call for the body of a packet, if there is one; `s` is the connection behind the
header byte. -/
def bodyRead (cap : Nat) (cuts : Nat → Int) (s : Stream) : Option ReadCall :=
  let decoded := decodePacket cuts s
  if TooLong cap decoded.1.2 then none
  else if decoded.1.2 = 0 then none
  else some ⟨decoded.1.2, decoded.2⟩

/-- The calls of `readPacket`, in their order. -/
def packetReads {cap : Nat} (cuts : Nat → Int) (c : Client cap) : List ReadCall :=
  let first := uisoMqttRead cuts 1 c.stream
  ⟨1, c.stream⟩ ::
    if first.1.length ≠ 1 then []
    else lengthReads cuts 4 first.2 ++ (bodyRead cap cuts first.2).toList

/-! ## What readPacket makes of them -/

/-- The header byte stays at the front of the buffer when the length and the body are
written behind it. -/
theorem byte_zero_writeAt {cap : Nat} (hcap : 0 < cap) (readbuf : Buffer cap) {len : Nat}
    (hlen : 0 < len) (bytes : List UInt8) :
    (readbuf.writeAt len bytes).byte 0 = readbuf.byte 0 := by
  rw [Buffer.byte_writeAt _ _ _ hcap, if_pos hlen]

/-- What `readPacket` returns behind a header byte `b`: the length does not fit, or there is no
body, or the body is short or whole. -/
def afterHeader (cap : Nat) (cuts : Nat → Int) (b : UInt8) (s : Stream) : Int :=
  if TooLong cap (decodePacket cuts s).1.2 then bufferOverflow
  else
    match bodyRead cap cuts s with
    | none => headerType b
    | some q => if q.result cuts = q.len then headerType b else 0

/-- Without a header byte there is no packet. -/
theorem readPacket_of_nil {cap : Nat} {cuts : Nat → Int} {c : Client cap}
    (h : (uisoMqttRead cuts 1 c.stream).1 = []) : (readPacket cuts c).1 = 0 := by
  simp [readPacket, h]

theorem readPacket_of_header {cap : Nat} (hcap : 0 < cap) {cuts : Nat → Int} {c : Client cap}
    {b : UInt8} {s : Stream} (h : uisoMqttRead cuts 1 c.stream = ([b], s)) :
    (readPacket cuts c).1 = afterHeader cap cuts b s := by
  have hheader : (c.readbuf.writeAt 0 [b]).byte 0 = b := by
    rw [Buffer.byte_writeAt _ _ _ hcap]
    rfl
  simp only [readPacket, h, List.length_singleton, ne_eq, not_true, if_false]
  rw [afterHeader, bodyRead]
  generalize decodePacket cuts s = decoded
  by_cases hlong : TooLong cap decoded.1.2
  · have hover : decoded.1.2 > roomAfter cap (1 + (mqttPacketEncode decoded.1.2).length) := by
      simpa only [TooLong] using hlong
    simp only [hover, hlong, if_true]
  · have hfits : ¬decoded.1.2 > roomAfter cap (1 + (mqttPacketEncode decoded.1.2).length) := by
      simpa only [TooLong] using hlong
    simp only [hfits, hlong, if_false]
    by_cases hzero : decoded.1.2 = 0
    · simp only [hzero, if_true, byte_zero_writeAt hcap _ Nat.one_pos, hheader]
    · have hlen : 0 < 1 + (mqttPacketEncode decoded.1.2).length := by omega
      simp only [hzero, if_false, ReadCall.result, Int.natCast_inj]
      by_cases hwhole : (uisoMqttRead cuts decoded.1.2 decoded.2).1.length = decoded.1.2
      · simp only [hwhole, not_true, if_false, if_true, byte_zero_writeAt hcap _ hlen,
          byte_zero_writeAt hcap _ Nat.one_pos, hheader]
      · simp only [hwhole, not_false_iff, if_true, if_false]

/-- `readPacket` returns 0 when no byte was received, and also when the body of a packet is
short and for a packet of type 0. -/
theorem readPacket_eq_zero_iff {cap : Nat} (hcap : 0 < cap) {cuts : Nat → Int} {c : Client cap}
    {b : UInt8} {s : Stream} (h : uisoMqttRead cuts 1 c.stream = ([b], s)) :
    (readPacket cuts c).1 = 0 ↔ ¬TooLong cap (decodePacket cuts s).1.2 ∧
      ((∃ q ∈ bodyRead cap cuts s, q.result cuts ≠ q.len) ∨ headerType b = 0) := by
  rw [readPacket_of_header hcap h, afterHeader]
  by_cases hlong : TooLong cap (decodePacket cuts s).1.2
  · simp [hlong, bufferOverflow]
  · rw [if_neg hlong]
    cases hbody : bodyRead cap cuts s with
    | none => simp [hlong]
    | some q => by_cases hwhole : q.result cuts = q.len <;> simp [hlong, hwhole]

end Uiso.Mqtt
