/-
  Mqtt/Cycle.lean --- one round of the MQTT client: `cycle`, `keepalive`,
  `MQTTCloseSession` and `MQTTYield` of src/mqtt/MQTTClient.c.

  What the Paho library makes of a packet and of the send buffer, the timers and the calls
  of `sl_Send` are given for each round, in a `CycleEnv`.  The message handlers are run by
  `deliverMessage`, whose result `cycle` does not look at; they are left out.

  A connection that is dead is one on which `sl_Recv` reports that it was closed, or an
  error other than `SL_EAGAIN`.
-/
import Uiso.Mqtt.Reports
import Uiso.Mqtt.Sending

set_option autoImplicit false

namespace Uiso.Mqtt

open Uiso.Foundation

/-! ## The client -/

namespace MsgType

/-- `CONNACK` -/
def connack : Int := 2
/-- `PUBLISH` -/
def publish : Int := 3
/-- `PUBACK` -/
def puback : Int := 4
/-- `PUBREC` -/
def pubrec : Int := 5
/-- `PUBREL` -/
def pubrel : Int := 6
/-- `PUBCOMP` -/
def pubcomp : Int := 7
/-- `SUBACK` -/
def suback : Int := 9
/-- `PINGRESP` -/
def pingresp : Int := 13

end MsgType

/-- `header.bits.qos` -/
def headerQos (header : UInt8) : Nat := ((header >>> 1) &&& 3).toNat

/-- The client, with the fields that `cycle` reads and writes; `written` is what it has put
on the connection. -/
structure MqttClient (cap : Nat) extends Client cap where
  isconnected : Bool
  pingOutstanding : Bool
  cleansession : Bool
  keepAliveInterval : Nat
  topicFilters : List (Option (List UInt8))
  written : List UInt8

/-- What one of the serialisers returns and leaves in the send buffer, and what
`sendPacket` then meets. -/
structure Transmission where
  len : Int
  buf : Nat → UInt8
  rounds : Nat → Round len.toNat

/-- `sendPacket(c, len, timer)` -/
def Transmission.send (t : Transmission) : Int × List UInt8 := sendPacket t.buf t.rounds

/-- What one call of `cycle` meets. -/
structure CycleEnv where
  /-- `MQTTDeserialize_publish` returns 1 -/
  publishRead : Bool
  /-- `MQTTDeserialize_ack` returns 1 -/
  ackRead : Bool
  /-- `MQTTSerialize_ack`, for each type of packet -/
  ack : Int → Transmission
  /-- `MQTTSerialize_pingreq` -/
  pingreq : Transmission
  lastSentExpired : Bool
  lastReceivedExpired : Bool

variable {cap : Nat}

/-- Bytes go on the connection. -/
def MqttClient.write (c : MqttClient cap) (bytes : List UInt8) : MqttClient cap :=
  { c with written := c.written ++ bytes }

/-! ## The functions -/

/-- `MQTTCleanSession` -/
def mqttCleanSession (c : MqttClient cap) : MqttClient cap :=
  { c with topicFilters := c.topicFilters.map fun _ => none }

/-- `MQTTCloseSession` -/
def mqttCloseSession (c : MqttClient cap) : MqttClient cap :=
  let c := { c with pingOutstanding := false, isconnected := false }
  if c.cleansession then mqttCleanSession c else c

/-- `keepalive` -/
def keepalive (env : CycleEnv) (c : MqttClient cap) : Int × MqttClient cap :=
  if c.keepAliveInterval = 0 then (success, c)
  else if env.lastSentExpired || env.lastReceivedExpired then
    if c.pingOutstanding then (failure, c)
    else if 0 < env.pingreq.len then
      let r := env.pingreq.send
      if r.1 = success then (success, { c.write r.2 with pingOutstanding := true })
      else (r.1, c.write r.2)
    else (success, c)
  else (success, c)

/-- The state of `cycle` behind its `switch`: `rc`, and whether it goes to `exit`. -/
structure Handled (cap : Nat) where
  rc : Int
  exit : Bool
  client : MqttClient cap

/-- The case `PUBLISH`. -/
def handlePublish (env : CycleEnv) (c : MqttClient cap) : Handled cap :=
  if env.publishRead = false then ⟨success, true, c⟩
  else
    let qos := headerQos (c.readbuf.byte 0)
    if qos = 0 then ⟨success, false, c⟩
    else
      let t := env.ack (if qos = 1 then MsgType.puback else MsgType.pubrec)
      -- A quality of service that is neither 1 nor 2 leaves `len` at 0.
      if (if qos = 1 ∨ qos = 2 then t.len else 0) ≤ 0 then ⟨failure, true, c⟩
      else
        let r := t.send
        ⟨r.1, r.1 = failure, c.write r.2⟩

/-- The cases `PUBREC` and `PUBREL`. -/
def handleAck (env : CycleEnv) (packetType : Int) (c : MqttClient cap) : Handled cap :=
  if env.ackRead = false then ⟨failure, true, c⟩
  else
    let t := env.ack (if packetType = MsgType.pubrec then MsgType.pubrel else MsgType.pubcomp)
    if t.len ≤ 0 then ⟨failure, true, c⟩
    else
      let r := t.send
      if r.1 ≠ success then ⟨failure, true, c.write r.2⟩ else ⟨success, false, c.write r.2⟩

/-- The `switch` of `cycle`. -/
def handlePacket (env : CycleEnv) (packetType : Int) (c : MqttClient cap) : Handled cap :=
  if packetType = 0 then ⟨success, false, c⟩
  else if packetType = MsgType.connack ∨ packetType = MsgType.puback ∨
      packetType = MsgType.suback then
    ⟨success, false, c⟩
  else if packetType = MsgType.publish then handlePublish env c
  else if packetType = MsgType.pubrec ∨ packetType = MsgType.pubrel then
    handleAck env packetType c
  else if packetType = MsgType.pubcomp then ⟨success, false, c⟩
  else if packetType = MsgType.pingresp then
    ⟨success, false, { c with pingOutstanding := false }⟩
  else ⟨packetType, true, c⟩

/-- `cycle` behind its `switch`. -/
def finishCycle (env : CycleEnv) (packetType : Int) (h : Handled cap) : Int × MqttClient cap :=
  let checked :=
    if h.exit then (h.rc, h.client)
    else
      let k := keepalive env h.client
      (if k.1 ≠ success then failure else h.rc, k.2)
  if checked.1 = success then (packetType, checked.2)
  else if checked.2.isconnected then (checked.1, mqttCloseSession checked.2)
  else checked

/-- `cycle` -/
def cycle (cuts : Nat → Int) (env : CycleEnv) (c : MqttClient cap) : Int × MqttClient cap :=
  let read := readPacket cuts c.toClient
  finishCycle env read.1 (handlePacket env read.1 { c with toClient := read.2 })

/-- The loop of `MQTTYield` over a model of its rounds: the first round and those that follow
until the timer is found expired. -/
def yieldLoop {ι σ : Type} (round : ι → σ → Int × σ) : ι → List ι → σ → Int × σ
  | i, [], s =>
      let r := round i s
      if r.1 < 0 then (failure, r.2) else (success, r.2)
  | i, next :: rest, s =>
      let r := round i s
      if r.1 < 0 then (failure, r.2) else yieldLoop round next rest r.2

/-- `MQTTYield` -/
def mqttYield (cuts : Nat → Int) :
    CycleEnv → List CycleEnv → MqttClient cap → Int × MqttClient cap :=
  yieldLoop (cycle cuts)

/-- The rounds of `MQTTYield`, each with the client it starts from. -/
def yieldRounds (cuts : Nat → Int) :
    CycleEnv → List CycleEnv → MqttClient cap → List (CycleEnv × MqttClient cap)
  | env, [], c => [(env, c)]
  | env, next :: rest, c =>
      let r := cycle cuts env c
      (env, c) :: if r.1 < 0 then [] else yieldRounds cuts next rest r.2

/-! ## The loop of MQTTYield -/

section YieldLoop

variable {ι σ : Type} {round : ι → σ → Int × σ}

theorem yieldLoop_preserves {P : σ → Prop} (hround : ∀ i s, P s → P (round i s).2) (i : ι)
    (rest : List ι) {s : σ} (h : P s) : P (yieldLoop round i rest s).2 := by
  induction rest generalizing i s with
  | nil =>
      simp only [yieldLoop]
      split <;> exact hround i s h
  | cons next rest ih =>
      simp only [yieldLoop]
      split
      · exact hround i s h
      · exact ih next (hround i s h)

/-- Rounds of which none fails. -/
theorem yieldLoop_of_rounds {P : σ → Prop} {i : ι} {rest : List ι}
    (hround : ∀ j ∈ i :: rest, ∀ s, P s → 0 ≤ (round j s).1 ∧ P (round j s).2) {s : σ} (h : P s) :
    (yieldLoop round i rest s).1 = success ∧ P (yieldLoop round i rest s).2 := by
  induction rest generalizing i s with
  | nil =>
      obtain ⟨hrc, hnext⟩ := hround i List.mem_cons_self s h
      rw [yieldLoop, if_neg (Int.not_lt.mpr hrc)]
      exact ⟨rfl, hnext⟩
  | cons next rest ih =>
      obtain ⟨hrc, hnext⟩ := hround i List.mem_cons_self s h
      rw [yieldLoop, if_neg (Int.not_lt.mpr hrc)]
      exact ih (fun j hj => hround j (List.mem_cons_of_mem i hj)) hnext

/-- A loop over rounds that are, in part of the state, rounds of another model is in that part
a loop of the other model. -/
theorem yieldLoop_map {κ τ : Type} {round' : κ → τ → Int × τ} {part : σ → τ} {env : ι → σ → κ}
    (hround : ∀ i s, round' (env i s) (part s) = ((round i s).1, part (round i s).2)) (i : ι)
    (rest : List ι) (s : σ) :
    ∃ rest', (∀ e ∈ rest', ∃ j ∈ rest, ∃ t, e = env j t) ∧
      yieldLoop round' (env i s) rest' (part s) =
        ((yieldLoop round i rest s).1, part (yieldLoop round i rest s).2) := by
  induction rest generalizing i s with
  | nil =>
      refine ⟨[], by simp, ?_⟩
      simp only [yieldLoop, hround]
      split <;> rfl
  | cons next rest ih =>
      by_cases hfailed : (round i s).1 < 0
      · refine ⟨[], by simp, ?_⟩
        simp only [yieldLoop, hround, hfailed, if_true]
      · obtain ⟨rest', henvs, hloop⟩ := ih next (round i s).2
        refine ⟨env next (round i s).2 :: rest', ?_, ?_⟩
        · intro e he
          rcases List.mem_cons.mp he with rfl | he
          · exact ⟨next, List.mem_cons_self, _, rfl⟩
          · obtain ⟨j, hj, ht⟩ := henvs e he
            exact ⟨j, List.mem_cons_of_mem next hj, ht⟩
        · simp only [yieldLoop, hround, hfailed, if_false]
          exact hloop

end YieldLoop

/-! ## Dead connections -/

/-- A dead connection is reported in one round of an `MQTTYield` that returns `yielded`. -/
structure ReportsDead (cuts : Nat → Int) (yielded : Int) (env : CycleEnv) (c : MqttClient cap) :
    Prop where
  /-- a report of a dead connection, in any of the reads, reaches the callers -/
  reported : ∀ q ∈ packetReads cuts c.toClient, (∃ r ∈ q.reports cuts, Dead r) →
    q.result cuts < 0 ∧ (cycle cuts env c).1 < 0 ∧
      (c.isconnected = true → (cycle cuts env c).2.isconnected = false) ∧ yielded = failure
  /-- no packet: the first call of `sl_Recv` has returned `SL_EAGAIN` -/
  noPacket : (readPacket cuts c.toClient).1 = 0 →
    (ReadCall.mk 1 c.stream).reports cuts = [slEagain]

/-- No call of `sl_Recv` reports a dead connection; and once there is a header byte, its type
is not 0 and `SL_EAGAIN` does not cut the body off. -/
structure Healthy (cuts : Nat → Int) (c : Client cap) : Prop where
  alive : ∀ q ∈ packetReads cuts c, ∀ r ∈ q.reports cuts, ¬Dead r
  whole : ∀ b s, uisoMqttRead cuts 1 c.stream = ([b], s) →
    ∀ q ∈ bodyRead cap cuts s, slEagain ∉ q.reports cuts
  typed : ∀ b s, uisoMqttRead cuts 1 c.stream = ([b], s) → headerType b = 0 →
    TooLong cap (decodePacket cuts s).1.2

theorem bodyRead_mem {cuts : Nat → Int} {c : Client cap} {b : UInt8} {s : Stream}
    (h : uisoMqttRead cuts 1 c.stream = ([b], s)) {q : ReadCall} (hq : q ∈ bodyRead cap cuts s) :
    q ∈ packetReads cuts c ∧ 0 < q.len ∧ ¬TooLong cap (decodePacket cuts s).1.2 := by
  have hsome : bodyRead cap cuts s = some q := hq
  refine ⟨?_, ?_⟩
  · simp [packetReads, h, hsome]
  · rw [bodyRead] at hsome
    split at hsome
    · cases hsome
    · rename_i hlong
      split at hsome
      · cases hsome
      · rename_i hzero
        obtain rfl := Option.some.inj hsome
        exact ⟨Nat.pos_of_ne_zero hzero, hlong⟩

/-- `uiso_mqtt_read` has no negative result, so a dead connection is never reported by it:
there must be none. -/
theorem ReportsDead.healthy (hcap : 0 < cap) {cuts : Nat → Int} {yielded : Int} {env : CycleEnv}
    {c : MqttClient cap} (h : ReportsDead cuts yielded env c) : Healthy cuts c.toClient := by
  have hnoheader : ∀ b s, uisoMqttRead cuts 1 c.stream = ([b], s) →
      (readPacket cuts c.toClient).1 ≠ 0 := by
    intro b s hread hzero
    have hreports := h.noPacket hzero
    rcases read_one cuts c.stream with ⟨hnil, -⟩ | ⟨b', s', -, hone⟩
    · rw [hread] at hnil
      cases hnil
    · rw [hone] at hreports
      revert hreports
      decide
  constructor
  · intro q hq r hr hdead
    exact absurd (h.reported q hq ⟨r, hr, hdead⟩).1 (Int.not_lt.mpr (q.result_nonneg cuts))
  · intro b s hread q hq hagain
    obtain ⟨-, hlen, hlong⟩ := bodyRead_mem hread hq
    refine hnoheader b s hread ((readPacket_eq_zero_iff hcap hread).mpr ⟨hlong, .inl ⟨q, hq, ?_⟩⟩)
    exact (ReadCall.result_ne_len_iff cuts hlen).mpr ⟨slEagain, hagain, by decide⟩
  · intro b s hread htype
    by_contra hlong
    exact hnoheader b s hread ((readPacket_eq_zero_iff hcap hread).mpr ⟨hlong, .inr htype⟩)

theorem Healthy.reportsDead (hcap : 0 < cap) {cuts : Nat → Int} (yielded : Int) (env : CycleEnv)
    {c : MqttClient cap} (h : Healthy cuts c.toClient) : ReportsDead cuts yielded env c := by
  constructor
  · rintro q hq ⟨r, hr, hdead⟩
    exact absurd hdead (h.alive q hq r hr)
  · intro hzero
    rcases read_one cuts c.stream with ⟨-, r, hle, hreports⟩ | ⟨b, s, hread, -⟩
    · have hnotdead := h.alive ⟨1, c.stream⟩ List.mem_cons_self r
        (by rw [hreports]; exact List.mem_singleton_self r)
      have hagain : r = slEagain := by
        by_contra hne
        exact hnotdead ⟨hle, hne⟩
      rw [hreports, hagain]
    · obtain ⟨hlong, ⟨q, hq, hshort⟩ | htype⟩ := (readPacket_eq_zero_iff hcap hread).mp hzero
      · -- The report that ended the body is none of a dead connection, so it is `SL_EAGAIN`.
        obtain ⟨hmem, hlen, -⟩ := bodyRead_mem hread hq
        obtain ⟨r, hr, hle⟩ := (ReadCall.result_ne_len_iff cuts hlen).mp hshort
        have hagain : r = slEagain := by
          by_contra hne
          exact h.alive q hmem r hr ⟨hle, hne⟩
        exact absurd (hagain ▸ hr) (h.whole b s hread q hq)
      · exact absurd (h.typed b s hread htype) hlong

theorem reportsDead_iff_healthy (hcap : 0 < cap) (cuts : Nat → Int) (yielded : Int)
    (env : CycleEnv) (c : MqttClient cap) :
    ReportsDead cuts yielded env c ↔ Healthy cuts c.toClient :=
  ⟨ReportsDead.healthy hcap, Healthy.reportsDead hcap yielded env⟩

/-! ## What happens instead -/

/-- A round that receives no header byte, for whatever reason, does nothing but
`keepalive`. -/
theorem cycle_of_nil {cuts : Nat → Int} (env : CycleEnv) {c : MqttClient cap}
    (h : (uisoMqttRead cuts 1 c.stream).1 = []) :
    cycle cuts env c = finishCycle env 0
      ⟨success, false, { c with toClient := (readPacket cuts c.toClient).2 }⟩ := by
  have hzero : (readPacket cuts c.toClient).1 = 0 := readPacket_of_nil h
  rw [cycle]
  simp only [hzero, handlePacket, if_true]

theorem keepalive_of_not_expired {env : CycleEnv} (hsent : env.lastSentExpired = false)
    (hreceived : env.lastReceivedExpired = false) (c : MqttClient cap) :
    keepalive env c = (success, c) := by
  simp [keepalive, hsent, hreceived]

/-- Until a timer of `keepalive` expires, such a round is not noticed. -/
theorem cycle_of_nil_of_not_expired {cuts : Nat → Int} {env : CycleEnv} {c : MqttClient cap}
    (h : (uisoMqttRead cuts 1 c.stream).1 = []) (hsent : env.lastSentExpired = false)
    (hreceived : env.lastReceivedExpired = false) :
    cycle cuts env c = (0, { c with toClient := (readPacket cuts c.toClient).2 }) := by
  rw [cycle_of_nil env h, finishCycle]
  simp [keepalive_of_not_expired hsent hreceived]

/-- On a connection on which every call of `sl_Recv` fails, `MQTTYield` succeeds and leaves
the session open, through any number of rounds in which no timer of `keepalive` expires. -/
theorem mqttYield_of_dead {cuts : Nat → Int} (hdead : ∀ call, cuts call ≤ 0) (env : CycleEnv)
    (rest : List CycleEnv) (c : MqttClient cap)
    (hquiet : ∀ e ∈ env :: rest, e.lastSentExpired = false ∧ e.lastReceivedExpired = false) :
    (mqttYield cuts env rest c).1 = success ∧
      (mqttYield cuts env rest c).2.isconnected = c.isconnected := by
  have hnil : ∀ s, (uisoMqttRead cuts 1 s).1 = [] := fun s =>
    (read_one_of_failure (hdead s.calls)).1
  refine yieldLoop_of_rounds (P := fun c' : MqttClient cap => c'.isconnected = c.isconnected) ?_ rfl
  intro e he c' hc'
  obtain ⟨hsent, hreceived⟩ := hquiet e he
  rw [cycle_of_nil_of_not_expired (hnil c'.stream) hsent hreceived]
  exact ⟨Int.le_refl 0, hc'⟩

/-! ## Whole calls of MQTTYield -/

/-- In every round of an `MQTTYield`, a dead connection is reported. -/
def YieldReportsDead (cuts : Nat → Int) (env : CycleEnv) (rest : List CycleEnv)
    (c : MqttClient cap) : Prop :=
  ∀ p ∈ yieldRounds cuts env rest c, ReportsDead cuts (mqttYield cuts env rest c).1 p.1 p.2

/-- Dead connections are reported, and nothing else passes for the absence of a packet, if
and only if the connection is healthy in every round. -/
theorem yieldReportsDead_iff_healthy (hcap : 0 < cap) (cuts : Nat → Int) (env : CycleEnv)
    (rest : List CycleEnv) (c : MqttClient cap) : YieldReportsDead cuts env rest c ↔
      ∀ p ∈ yieldRounds cuts env rest c, Healthy cuts p.2.toClient := by
  constructor
  · intro h p hp
    exact (reportsDead_iff_healthy hcap cuts _ p.1 p.2).mp (h p hp)
  · intro h p hp
    exact (reportsDead_iff_healthy hcap cuts _ p.1 p.2).mpr (h p hp)

/-- Nothing to send. -/
def noTransmission : Transmission := ⟨0, fun _ => 0, fun _ => ⟨true, -1, .inl (by decide)⟩⟩

/-- A round in which no timer has expired. -/
def quietEnv : CycleEnv := ⟨false, false, fun _ => noTransmission, noTransmission, false, false⟩

/-- A connected client with the read buffer of `mqtt_client.c`, on a connection without
data. -/
def idleClient : MqttClient 80 where
  stream := ⟨[], 0⟩
  readbuf := Buffer.zero 80
  isconnected := true
  pingOutstanding := false
  cleansession := true
  keepAliveInterval := 60
  topicFilters := [none, none, none, none, none]
  written := []

/-- On a connection without data, `SL_EAGAIN` is the absence of a packet. -/
theorem yieldReportsDead_slEagain :
    YieldReportsDead (fun _ => slEagain) quietEnv [] idleClient := by
  have hread := @read_one_of_failure (fun _ => slEagain) idleClient.stream (by decide)
  refine (yieldReportsDead_iff_healthy (by decide) _ quietEnv [] idleClient).mpr ?_
  intro p hp
  obtain rfl := List.mem_singleton.mp hp
  have hheader : ∀ b s, uisoMqttRead (fun _ => slEagain) 1 idleClient.stream ≠ ([b], s) := by
    intro b s hb
    have := hread.1
    rw [hb] at this
    cases this
  refine ⟨?_, fun b s hb => absurd hb (hheader b s), fun b s hb => absurd hb (hheader b s)⟩
  intro q hq r hr
  have hone : packetReads (fun _ => slEagain) idleClient.toClient = [⟨1, idleClient.stream⟩] := by
    rw [packetReads, hread.1]
    rfl
  rw [hone] at hq
  obtain rfl := List.mem_singleton.mp hq
  rw [hread.2] at hr
  obtain rfl := List.mem_singleton.mp hr
  decide

/-- The connection is closed while the client waits for a packet: `MQTTYield` succeeds, and
the session stays open. -/
theorem not_yieldReportsDead_closed :
    ¬∀ (cuts : Nat → Int) (env : CycleEnv) (rest : List CycleEnv) (c : MqttClient 80),
      YieldReportsDead cuts env rest c := by
  intro h
  have hyield := mqttYield_of_dead (fun _ => Int.le_refl 0) quietEnv [] idleClient
    (fun e he => by rw [List.mem_singleton.mp he]; exact ⟨rfl, rfl⟩)
  have hread := @read_one_of_failure (fun _ => 0) idleClient.stream (by decide)
  have hround := h (fun _ => 0) quietEnv [] idleClient (quietEnv, idleClient)
    (List.mem_singleton_self _)
  have hfailure := (hround.reported ⟨1, idleClient.stream⟩ List.mem_cons_self
    ⟨0, by rw [hread.2]; exact List.mem_singleton_self _, by decide⟩).2.2.2
  rw [hyield.1] at hfailure
  revert hfailure
  decide

end Uiso.Mqtt
