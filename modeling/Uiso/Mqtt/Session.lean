/-
  Mqtt/Session.lean --- the calls of the MQTT client: `MQTTConnect`, `MQTTSubscribe`,
  `MQTTUnsubscribe`, `MQTTPublish`, `MQTTYield` and `MQTTDisconnect` of
  src/mqtt/MQTTClient.c, and `waitfor` below them.

  A call sends a request, and then runs rounds of `cycle` until the answer has come, a round
  has failed or the timer has expired.  What it meets outside the client is in a `CallIo`:
  one `CycleIo` for the request, or for the first round of `MQTTYield`, and one for each
  round for which the timer is not found expired.

  The mutex of `MQTT_TASK` is left out.  Nothing calls `MQTTStartTask`, so the task that makes
  the calls is the only one to take it; no call is made while another one holds it.
-/
import Uiso.Mqtt.Delivery

set_option autoImplicit false

namespace Uiso.Mqtt

open Uiso.Foundation

variable {cap : Nat} {H : Type}

/-! ## The client of the calls -/

/-- The client, with the packet identifier it used last and the calls of its message
handlers. -/
structure Session (cap : Nat) (H : Type) extends Subscriber cap H where
  /-- `next_packetid` -/
  nextPacketid : Nat
  delivered : List (H × Message)

namespace Session

/-- The client is replaced by one with as many topic filters. -/
def withClient (s : Session cap H) (c : MqttClient cap)
    (h : c.topicFilters.length = s.client.topicFilters.length) : Session cap H where
  client := c
  fps := s.fps
  filters_size := h.trans s.filters_size
  fps_size := s.fps_size
  nextPacketid := s.nextPacketid
  delivered := s.delivered

/-- The message handlers are replaced. -/
def withHandlers (s : Session cap H) (t : MessageHandlers H) : Session cap H where
  client := { s.client with topicFilters := t.slots.map Slot.topicFilter }
  fps := t.slots.map Slot.fp
  filters_size := by rw [List.length_map, t.size]
  fps_size := by rw [List.length_map, t.size]
  nextPacketid := s.nextPacketid
  delivered := s.delivered

end Session

theorem length_topicFilters_mqttCloseSession (c : MqttClient cap) :
    (mqttCloseSession c).topicFilters.length = c.topicFilters.length := by
  unfold mqttCloseSession
  simp only
  split
  · rw [mqttCleanSession, List.length_map]
  · rfl

/-- What a call meets outside the client. -/
structure CallIo where
  first : CycleIo
  rest : List CycleIo

namespace Session

/-- `getNextPacketId` -/
def getNextPacketId (s : Session cap H) : Nat × Session cap H :=
  let id := if s.nextPacketid = 65535 then 1 else s.nextPacketid + 1
  (id, { s with nextPacketid := id })

/-- `MQTTCloseSession` -/
def closeSession (s : Session cap H) : Session cap H :=
  s.withClient (mqttCloseSession s.client) (length_topicFilters_mqttCloseSession s.client)

/-- `MQTTSetMessageHandler` -/
def setMessageHandler (topicFilter : List UInt8) (messageHandler : Option H) (s : Session cap H) :
    Int × Session cap H :=
  let r := mqttSetMessageHandler s.handlers topicFilter messageHandler
  (r.1, s.withHandlers r.2)

/-- A packet is serialised and sent, if it fits the send buffer. -/
def send (io : CycleIo) (r : Int × List UInt8) (s : Session cap H) : Int × Session cap H :=
  if r.1 ≤ 0 then (failure, s)
  else
    let sent := (io.transmission io.sends r).send
    (sent.1, s.withClient (s.client.write sent.2) rfl)

variable (cuts : Nat → Int) (defaultMessageHandler : Option H)

/-- `cycle` -/
def cycle (io : CycleIo) (s : Session cap H) : Int × Session cap H :=
  ((pahoCycle cuts io s.client).1,
    { s with
      toSubscriber := s.toSubscriber.cycle cuts io
      delivered := s.delivered ++ s.toSubscriber.deliveries cuts defaultMessageHandler io })

/-- `waitfor`, with `rc` as it is and the rounds until the timer is found expired. -/
def waitfor (packetType : Int) : Int → List CycleIo → Session cap H → Int × Session cap H
  | rc, [], s => (rc, s)
  | _, io :: ios, s =>
      let r := s.cycle cuts defaultMessageHandler io
      if r.1 ≠ packetType ∧ 0 ≤ r.1 then waitfor packetType r.1 ios r.2 else r

/-- `MQTTYield` -/
def mqttYield : CycleIo → List CycleIo → Session cap H → Int × Session cap H :=
  yieldLoop (cycle cuts defaultMessageHandler)

/-- The wait for an answer, and what is done with it. -/
def await (packetType : Int) (ios : List CycleIo) (answered : Session cap H → Int × Session cap H)
    (s : Session cap H) : Int × Session cap H :=
  let w := s.waitfor cuts defaultMessageHandler packetType failure ios
  if w.1 = packetType then answered w.2 else (failure, w.2)

end Session

/-! ## The calls -/

/-- `UNSUBACK` -/
def MsgType.unsuback : Int := 11

/-- What `MQTTSubscribe`, `MQTTUnsubscribe` and `MQTTPublish` have in common: they fail without
a session, send a request and wait for its answer, and close the session if they fail. -/
def command (io : CycleIo) (request : Session cap H → (Int × List UInt8) × Session cap H)
    (answer : Session cap H → Int × Session cap H) (s : Session cap H) : Int × Session cap H :=
  let r :=
    if s.client.isconnected = false then (failure, s)
    else
      let q := request s
      let sent := q.2.send io q.1
      if sent.1 ≠ success then sent else answer sent.2
  if r.1 = failure then (r.1, r.2.closeSession) else r

/-- The topic and the message of `MQTTPublish`. -/
structure Outgoing where
  topicName : List UInt8
  payload : List UInt8
  qos : Nat
  retained : Bool
  /-- `message->id`, which is overwritten for a quality of service of 1 or 2 -/
  id : Nat

/-- `MQTTPacket_connectData_initializer` -/
def defaultOptions : ConnectData := ⟨4, [], 60, true, none, none, none⟩

/-- The request of `MQTTSubscribe`. -/
def subscribeRequest (bufSize : Nat) (topicFilter : List UInt8) (qos : Nat) (s : Session cap H) :
    (Int × List UInt8) × Session cap H :=
  let p := s.getNextPacketId
  (mqttSerializeSubscribe bufSize p.1 topicFilter qos, p.2)

/-- The request of `MQTTUnsubscribe`. -/
def unsubscribeRequest (bufSize : Nat) (topicFilter : List UInt8) (s : Session cap H) :
    (Int × List UInt8) × Session cap H :=
  let p := s.getNextPacketId
  (mqttSerializeUnsubscribe bufSize p.1 topicFilter, p.2)

/-- The request of `MQTTPublish`. -/
def publishRequest (bufSize : Nat) (m : Outgoing) (s : Session cap H) :
    (Int × List UInt8) × Session cap H :=
  let p := if m.qos = 1 ∨ m.qos = 2 then s.getNextPacketId else (m.id, s)
  (mqttSerializePublish bufSize false m.qos m.retained p.1 m.topicName m.payload, p.2)

/-- `MQTTConnect` stores two of the options. -/
def Session.withOptions (options : ConnectData) (s : Session cap H) : Session cap H :=
  let c := { s.client with
    keepAliveInterval := options.keepAliveInterval
    cleansession := options.cleansession }
  s.withClient c rfl

/-- What `MQTTConnect` makes of a `CONNACK`; `data->rc` is 0 before it is set. -/
def connackRead (s : Session cap H) : Int × Session cap H :=
  let d := mqttDeserializeConnack s.client.readbuf.byte
  if d.1 = 1 then
    match d.2 with
    | some (_, rc) => (rc.toNat, s)
    | none => (0, s)
  else (failure, s)

/-- The `exit` of `MQTTConnect`. -/
def leaveConnect (r : Int × Session cap H) : Int × Session cap H :=
  if r.1 = success then
    let c := { r.2.client with isconnected := true, pingOutstanding := false }
    (r.1, r.2.withClient c rfl)
  else r

/-- What `MQTTSubscribe` makes of a `SUBACK`. -/
def subscribed (topicFilter : List UInt8) (messageHandler : Option H) (s : Session cap H) :
    Int × Session cap H :=
  let d := mqttDeserializeSuback 1 s.client.readbuf.byte
  -- `grantedQoS` is 0 before it is set.
  if d.1 = 1 ∧ d.2.headD 0 ≠ 0x80 then s.setMessageHandler topicFilter messageHandler
  else (success, s)

/-- What `MQTTUnsubscribe` makes of an `UNSUBACK`. -/
def unsubscribed (topicFilter : List UInt8) (s : Session cap H) : Int × Session cap H :=
  if (mqttDeserializeUnsuback s.client.readbuf.byte).1 = 1 then
    (success, (s.setMessageHandler topicFilter none).2)
  else (success, s)

/-- What `MQTTPublish` makes of a `PUBACK` or `PUBCOMP`. -/
def acknowledged (s : Session cap H) : Int × Session cap H :=
  if (mqttDeserializeAck s.client.readbuf.byte).1 ≠ 1 then (failure, s) else (success, s)

section

variable (cuts : Nat → Int) (defaultMessageHandler : Option H)

/-- `MQTTConnect` -/
def mqttConnect (options : Option ConnectData) (io : CallIo) (s : Session cap H) :
    Int × Session cap H :=
  if s.client.isconnected then (failure, s)
  else
    let options := options.getD defaultOptions
    let sent := (s.withOptions options).send io.first
      (mqttSerializeConnect io.first.bufSize options)
    leaveConnect
      (if sent.1 ≠ success then sent
      else sent.2.await cuts defaultMessageHandler MsgType.connack io.rest connackRead)

/-- `MQTTSubscribe` -/
def mqttSubscribe (topicFilter : List UInt8) (qos : Nat) (messageHandler : Option H) (io : CallIo) :
    Session cap H → Int × Session cap H :=
  command io.first (subscribeRequest io.first.bufSize topicFilter qos)
    (Session.await cuts defaultMessageHandler MsgType.suback io.rest
      (subscribed topicFilter messageHandler))

/-- `MQTTUnsubscribe` -/
def mqttUnsubscribe (topicFilter : List UInt8) (io : CallIo) :
    Session cap H → Int × Session cap H :=
  command io.first (unsubscribeRequest io.first.bufSize topicFilter)
    (Session.await cuts defaultMessageHandler MsgType.unsuback io.rest (unsubscribed topicFilter))

/-- `MQTTPublish` -/
def mqttPublish (m : Outgoing) (io : CallIo) : Session cap H → Int × Session cap H :=
  command io.first (publishRequest io.first.bufSize m)
    (if m.qos = 1 then
      Session.await cuts defaultMessageHandler MsgType.puback io.rest acknowledged
    else if m.qos = 2 then
      Session.await cuts defaultMessageHandler MsgType.pubcomp io.rest acknowledged
    else fun s => (success, s))

/-- `MQTTDisconnect` -/
def mqttDisconnect (io : CallIo) (s : Session cap H) : Int × Session cap H :=
  let sent := s.send io.first (mqttSerializeZero io.first.bufSize 14)
  (sent.1, sent.2.closeSession)

end

/-- A call that sends a request in an open session. -/
inductive Command (H : Type) where
  | subscribe (topicFilter : List UInt8) (qos : Nat) (messageHandler : Option H)
  | unsubscribe (topicFilter : List UInt8)
  | publish (m : Outgoing)

/-- What a command returns, and the client after it. -/
def Command.run (cuts : Nat → Int) (defaultMessageHandler : Option H) (io : CallIo) :
    Command H → Session cap H → Int × Session cap H
  | subscribe topicFilter qos messageHandler =>
      mqttSubscribe cuts defaultMessageHandler topicFilter qos messageHandler io
  | unsubscribe topicFilter => mqttUnsubscribe cuts defaultMessageHandler topicFilter io
  | publish m => mqttPublish cuts defaultMessageHandler m io

/-- A call of the client. -/
inductive Call (H : Type) where
  | connect (options : Option ConnectData)
  | command (c : Command H)
  | yield
  | disconnect

@[inherit_doc Command.run]
def Call.run (cuts : Nat → Int) (defaultMessageHandler : Option H) (io : CallIo) :
    Call H → Session cap H → Int × Session cap H
  | connect options => mqttConnect cuts defaultMessageHandler options io
  | command c => c.run cuts defaultMessageHandler io
  | yield => Session.mqttYield cuts defaultMessageHandler io.first io.rest
  | disconnect => mqttDisconnect io

/-- Calls one after the other: each of them with what it returns, and the client after them. -/
def Session.runCalls (cuts : Nat → Int) (defaultMessageHandler : Option H) :
    List (Call H × CallIo) → Session cap H → List (Call H × Int) × Session cap H
  | [], s => ([], s)
  | (call, io) :: calls, s =>
      let r := call.run cuts defaultMessageHandler io s
      let rest := runCalls cuts defaultMessageHandler calls r.2
      ((call, r.1) :: rest.1, rest.2)

/-- `MQTTClientInit` -/
def mqttClientInit (s : Session cap H) : Session cap H :=
  let c := { s.client with
    isconnected := false
    cleansession := false
    pingOutstanding := false
    topicFilters := s.client.topicFilters.map fun _ => none }
  { s.withClient c (List.length_map _) with nextPacketid := 1 }

/-! ## What a call does to the session -/

theorem isconnected_mqttCloseSession (c : MqttClient cap) :
    (mqttCloseSession c).isconnected = false := by
  unfold mqttCloseSession
  simp only
  split <;> rfl

theorem Session.isconnected_send (io : CycleIo) (r : Int × List UInt8) (s : Session cap H) :
    (s.send io r).2.client.isconnected = s.client.isconnected := by
  unfold Session.send
  split <;> rfl

theorem Session.isconnected_closeSession (s : Session cap H) :
    s.closeSession.client.isconnected = false :=
  isconnected_mqttCloseSession s.client

theorem isconnected_exitSession (c : MqttClient cap) : (exitSession c).isconnected = false := by
  unfold exitSession
  split
  · exact isconnected_mqttCloseSession c
  · rename_i h
    exact eq_false_of_ne_true h

section

variable {cuts : Nat → Int} {defaultMessageHandler : Option H} {io : CycleIo}

/-- A round that does not fail leaves the session open if it was open and the packet is one
that `cycle` has a case for. -/
theorem Session.isconnected_cycle {s : Session cap H}
    (h : 0 ≤ (s.cycle cuts defaultMessageHandler io).1) :
    (s.cycle cuts defaultMessageHandler io).2.client.isconnected = true ↔
      s.client.isconnected = true ∧ Expected (readPacket cuts s.client.toClient).1 := by
  have hcases := cycle_cases cuts
    (cycleEnv io (readPacket cuts s.client.toClient).2.readbuf) s.client
  simp only [Session.cycle, Subscriber.cycle, pahoCycle] at h ⊢
  generalize Mqtt.cycle cuts _ s.client = r at h hcases ⊢
  cases hcases with
  | known expected kept => simp [kept.isconnected, expected]
  | failed expected kept => exact absurd h (show ¬0 ≤ failure by decide)
  | unknown unexpected kept => simp [isconnected_exitSession, unexpected]

/-- The results of `readPacket` in the rounds of `waitfor`. -/
def Session.waitReads (cuts : Nat → Int) (defaultMessageHandler : Option H) (packetType : Int) :
    List CycleIo → Session cap H → List Int
  | [], _ => []
  | io :: ios, s =>
      let r := s.cycle cuts defaultMessageHandler io
      (readPacket cuts s.client.toClient).1 ::
        if r.1 ≠ packetType ∧ 0 ≤ r.1 then waitReads cuts defaultMessageHandler packetType ios r.2
        else []

/-- When the packet has come, the session is open if it was open before and all packets until
then were such that `cycle` has a case for them. -/
theorem Session.isconnected_waitfor {packetType rc : Int} (hpos : 0 ≤ packetType)
    (hrc : rc ≠ packetType) {ios : List CycleIo} {s : Session cap H}
    (hfound : (s.waitfor cuts defaultMessageHandler packetType rc ios).1 = packetType) :
    (s.waitfor cuts defaultMessageHandler packetType rc ios).2.client.isconnected = true ↔
      s.client.isconnected = true ∧
        ∀ t ∈ s.waitReads cuts defaultMessageHandler packetType ios, Expected t := by
  induction ios generalizing rc s with
  | nil => exact absurd hfound hrc
  | cons io ios ih =>
      rw [Session.waitfor] at hfound ⊢
      rw [Session.waitReads]
      by_cases hnext : (s.cycle cuts defaultMessageHandler io).1 ≠ packetType ∧
          0 ≤ (s.cycle cuts defaultMessageHandler io).1
      · rw [if_pos hnext] at hfound ⊢
        rw [ih hnext.1 hfound, Session.isconnected_cycle hnext.2, if_pos hnext,
          List.forall_mem_cons, and_assoc]
      · rw [if_neg hnext] at hfound ⊢
        rw [Session.isconnected_cycle (hfound ▸ hpos), if_neg hnext]
        simp

end

/-- A round that does not fail returns the type of the packet. -/
theorem Session.cycle_rc {cuts : Nat → Int} {defaultMessageHandler : Option H} {io : CycleIo}
    {s : Session cap H} (h : 0 ≤ (s.cycle cuts defaultMessageHandler io).1) :
    (s.cycle cuts defaultMessageHandler io).1 = (readPacket cuts s.client.toClient).1 := by
  have hcases := cycle_cases cuts
    (cycleEnv io (readPacket cuts s.client.toClient).2.readbuf) s.client
  simp only [Session.cycle, pahoCycle] at h ⊢
  generalize Mqtt.cycle cuts _ s.client = r at h hcases ⊢
  cases hcases with
  | known expected kept => rfl
  | failed expected kept => exact absurd h (show ¬0 ≤ failure by decide)
  | unknown unexpected kept => rfl

theorem Session.mem_waitReads {cuts : Nat → Int} {defaultMessageHandler : Option H}
    {packetType rc : Int} (hpos : 0 ≤ packetType) (hrc : rc ≠ packetType) {ios : List CycleIo}
    {s : Session cap H}
    (hfound : (s.waitfor cuts defaultMessageHandler packetType rc ios).1 = packetType) :
    packetType ∈ s.waitReads cuts defaultMessageHandler packetType ios := by
  induction ios generalizing rc s with
  | nil => exact absurd hfound hrc
  | cons io ios ih =>
      rw [Session.waitfor] at hfound
      rw [Session.waitReads]
      by_cases hnext : (s.cycle cuts defaultMessageHandler io).1 ≠ packetType ∧
          0 ≤ (s.cycle cuts defaultMessageHandler io).1
      · rw [if_pos hnext] at hfound ⊢
        exact List.mem_cons_of_mem _ (ih hnext.1 hfound)
      · rw [if_neg hnext] at hfound ⊢
        rw [← hfound, Session.cycle_rc (hfound ▸ hpos)]
        exact List.mem_cons_self

/-- In the client of Mqtt/Cycle.lean, `MQTTYield` is the `MQTTYield` of that module. -/
theorem Session.client_mqttYield (cuts : Nat → Int) (defaultMessageHandler : Option H)
    (io : CycleIo) (rest : List CycleIo) (s : Session cap H) :
    ∃ rest', (∀ env ∈ rest', ∃ io ∈ rest, ∃ readbuf : Buffer cap, env = cycleEnv io readbuf) ∧
      Mqtt.mqttYield cuts (cycleEnv io (readPacket cuts s.client.toClient).2.readbuf) rest'
          s.client =
        ((s.mqttYield cuts defaultMessageHandler io rest).1,
          (s.mqttYield cuts defaultMessageHandler io rest).2.client) := by
  have hround : ∀ (io : CycleIo) (s : Session cap H),
      Mqtt.cycle cuts (cycleEnv io (readPacket cuts s.client.toClient).2.readbuf) s.client =
        ((s.cycle cuts defaultMessageHandler io).1,
          (s.cycle cuts defaultMessageHandler io).2.client) := fun _ _ => rfl
  obtain ⟨rest', henvs, hloop⟩ := yieldLoop_map hround io rest s
  refine ⟨rest', ?_, hloop⟩
  intro env henv
  obtain ⟨io, hio, t, rfl⟩ := henvs env henv
  exact ⟨io, hio, _, rfl⟩

/-- A call of `MQTTYield` on a connection on which every call of `sl_Recv` fails succeeds and
leaves the session open, until a timer of `keepalive` expires. -/
theorem Session.mqttYield_of_dead {cuts : Nat → Int} (hdead : ∀ call, cuts call ≤ 0)
    (defaultMessageHandler : Option H) (io : CycleIo) (rest : List CycleIo)
    (hquiet : ∀ io' ∈ io :: rest,
      io'.lastSentExpired = false ∧ io'.lastReceivedExpired = false) (s : Session cap H) :
    (s.mqttYield cuts defaultMessageHandler io rest).1 = success ∧
      (s.mqttYield cuts defaultMessageHandler io rest).2.client.isconnected =
        s.client.isconnected := by
  obtain ⟨rest', henvs, hclient⟩ := s.client_mqttYield cuts defaultMessageHandler io rest
  have hyield := Mqtt.mqttYield_of_dead hdead
    (cycleEnv io (readPacket cuts s.client.toClient).2.readbuf) rest' s.client
  rw [hclient] at hyield
  apply hyield
  intro env henv
  rcases List.mem_cons.mp henv with rfl | henv
  · exact hquiet io List.mem_cons_self
  · obtain ⟨io', hio, readbuf, rfl⟩ := henvs env henv
    exact hquiet io' (List.mem_cons_of_mem io hio)

/-! ## The commands -/

namespace Command

/-- The request, and the client with its packet identifier. -/
def request (bufSize : Nat) : Command H → Session cap H → (Int × List UInt8) × Session cap H
  | subscribe topicFilter qos _ => subscribeRequest bufSize topicFilter qos
  | unsubscribe topicFilter => unsubscribeRequest bufSize topicFilter
  | publish m => publishRequest bufSize m

/-- The type of the packet that is waited for. -/
def awaited : Command H → Option Int
  | subscribe _ _ _ => some MsgType.suback
  | unsubscribe _ => some MsgType.unsuback
  | publish m =>
      if m.qos = 1 then some MsgType.puback
      else if m.qos = 2 then some MsgType.pubcomp
      else none

/-- The client when the request is sent. -/
def sent (io : CycleIo) (c : Command H) (s : Session cap H) : Int × Session cap H :=
  let q := c.request io.bufSize s
  q.2.send io q.1

end Command

theorem Session.send_rc (io : CycleIo) (r : Int × List UInt8) (s : Session cap H) :
    (s.send io r).1 = success ∨ (s.send io r).1 = failure := by
  unfold Session.send
  split
  · exact .inr rfl
  · exact sendPacket_rc _ _

/-- A command has failed and closed the session, or it has sent its request and returns what
was made of the answer. -/
theorem command_cases (io : CycleIo)
    (request : Session cap H → (Int × List UInt8) × Session cap H)
    (answer : Session cap H → Int × Session cap H) (s : Session cap H) :
    ((command io request answer s).1 = failure ∧
        ∃ s' : Session cap H, (command io request answer s).2 = s'.closeSession) ∨
      (s.client.isconnected = true ∧ ((request s).2.send io (request s).1).1 = success ∧
        command io request answer s = answer ((request s).2.send io (request s).1).2 ∧
        (command io request answer s).1 ≠ failure) := by
  unfold command
  simp only
  generalize hr : (if s.client.isconnected = false then (failure, s) else _ :
    Int × Session cap H) = r
  by_cases hfailure : r.1 = failure
  · left
    rw [if_pos hfailure]
    exact ⟨hfailure, r.2, rfl⟩
  · right
    rw [if_neg hfailure]
    split at hr
    · exact absurd (hr ▸ rfl) hfailure
    · rename_i hconnected
      split at hr
      · rename_i hsent
        subst hr
        exact absurd ((Session.send_rc io (request s).1 (request s).2).resolve_left hsent) hfailure
      · rename_i hsent
        exact ⟨eq_true_of_ne_false hconnected, not_not.mp hsent, hr.symm, hfailure⟩

section

variable {cuts : Nat → Int} {defaultMessageHandler : Option H} {packetType : Int}
  {answered : Session cap H → Int × Session cap H}

/-- The answer has come, if a wait does not fail. -/
theorem Session.await_of_ne_failure {ios : List CycleIo} {s : Session cap H}
    (h : (s.await cuts defaultMessageHandler packetType ios answered).1 ≠ failure) :
    (s.waitfor cuts defaultMessageHandler packetType failure ios).1 = packetType ∧
      s.await cuts defaultMessageHandler packetType ios answered =
        answered (s.waitfor cuts defaultMessageHandler packetType failure ios).2 := by
  simp only [Session.await] at h ⊢
  split at h
  · rename_i hfound
    simp only [hfound, if_true, and_self]
  · exact absurd rfl h

/-- A command that waits for an answer and does not fail leaves the session open if it has
read only packets that `cycle` has a case for. -/
theorem isconnected_command {io : CycleIo} {ios : List CycleIo}
    {request : Session cap H → (Int × List UInt8) × Session cap H} {s : Session cap H}
    (hpos : 0 ≤ packetType)
    (hrequest : ∀ s, (request s).2.client.isconnected = s.client.isconnected)
    (hanswered : ∀ s, (answered s).2.client.isconnected = s.client.isconnected)
    (hok : (command io request
      (Session.await cuts defaultMessageHandler packetType ios answered) s).1 ≠ failure) :
    (command io request
        (Session.await cuts defaultMessageHandler packetType ios answered) s).2.client.isconnected =
          true ↔
      ∀ t ∈ ((request s).2.send io (request s).1).2.waitReads cuts defaultMessageHandler
        packetType ios, Expected t := by
  rcases command_cases io request
    (Session.await cuts defaultMessageHandler packetType ios answered) s with
    ⟨hfailure, -⟩ | ⟨hconnected, -, hanswer, -⟩
  · exact absurd hfailure hok
  · rw [hanswer] at hok ⊢
    obtain ⟨hfound, heq⟩ := Session.await_of_ne_failure hok
    have hrc : failure ≠ packetType := by
      unfold failure
      omega
    rw [heq, hanswered, Session.isconnected_waitfor hpos hrc hfound]
    have hsent : ((request s).2.send io (request s).1).2.client.isconnected = true := by
      rw [Session.isconnected_send, hrequest, hconnected]
    simp only [hsent, true_and]

end

theorem isconnected_subscribed (topicFilter : List UInt8) (messageHandler : Option H)
    (s : Session cap H) :
    (subscribed topicFilter messageHandler s).2.client.isconnected = s.client.isconnected := by
  simp only [subscribed]
  split <;> rfl

theorem isconnected_unsubscribed (topicFilter : List UInt8) (s : Session cap H) :
    (unsubscribed topicFilter s).2.client.isconnected = s.client.isconnected := by
  unfold unsubscribed
  split <;> rfl

theorem isconnected_acknowledged (s : Session cap H) :
    (acknowledged s).2.client.isconnected = s.client.isconnected := by
  unfold acknowledged
  split <;> rfl

theorem client_publishRequest (bufSize : Nat) (m : Outgoing) (s : Session cap H) :
    (publishRequest bufSize m s).2.client = s.client := by
  simp only [publishRequest]
  split <;> rfl

/-- `MQTTUnsubscribe` leaves the client without a session, whatever happens: `cycle` has no
case for the `UNSUBACK` that it waits for. -/
theorem mqttUnsubscribe_closes (cuts : Nat → Int) (defaultMessageHandler : Option H)
    (topicFilter : List UInt8) (io : CallIo) (s : Session cap H) :
    (mqttUnsubscribe cuts defaultMessageHandler topicFilter io s).2.client.isconnected = false := by
  rcases command_cases io.first (unsubscribeRequest io.first.bufSize topicFilter)
    (Session.await cuts defaultMessageHandler MsgType.unsuback io.rest (unsubscribed topicFilter))
    s with ⟨-, s', hclosed⟩ | ⟨-, -, hanswer, hne⟩
  · rw [mqttUnsubscribe, hclosed]
    exact s'.isconnected_closeSession
  · apply eq_false_of_ne_true
    intro hopen
    have hall := (isconnected_command (by decide) (fun _ => rfl)
      (isconnected_unsubscribed topicFilter) hne).mp hopen
    rw [hanswer] at hne
    obtain ⟨hfound, -⟩ := Session.await_of_ne_failure hne
    exact absurd (hall _ (Session.mem_waitReads (by decide) (by decide) hfound)) (by decide)

end Uiso.Mqtt
