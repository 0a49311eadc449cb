/-
  Mqtt/Exchange.lean --- what the calls of the MQTT client do when the server answers.

  While a call waits, other packets may come before the answer: messages, and the packets of
  their quality of service.  They are handled as in any other round.

      mqttPublish_answered     : `MQTTPublish` with quality of service 1 or 2
      mqttSubscribe_answered   : `MQTTSubscribe`
      command_success_open_iff : when a call that succeeds has lost the session
-/
import Uiso.Mqtt.Session

set_option autoImplicit false

namespace Uiso.Mqtt

open Uiso.Foundation

variable {cap : Nat} {H : Type}

/-! ## Rounds -/

/-- Between two states of the client some packets have come, and nothing else has happened:
the messages in them are delivered, and all are answered. -/
structure Exchanged (defaultMessageHandler : Option H) (packets : List Inbound)
    (s s' : Session cap H) : Prop where
  delivered : s'.delivered =
    s.delivered ++ packets.flatMap (Inbound.deliveries s.handlers defaultMessageHandler)
  written : s'.client.written =
    s.client.written ++ packets.flatMap fun i => i.reply.flatMap Packet.bytes
  kept : SessionKept s.client s'.client
  fps : s'.fps = s.fps
  nextPacketid : s'.nextPacketid = s.nextPacketid

theorem Exchanged.handlers {defaultMessageHandler : Option H} {packets : List Inbound}
    {s s' : Session cap H} (h : Exchanged defaultMessageHandler packets s s') :
    s'.handlers = s.handlers := by
  simp only [Subscriber.handlers, h.kept.topicFilters, h.fps]

theorem Exchanged.cons {defaultMessageHandler : Option H} {i : Inbound} {packets : List Inbound}
    {s s' s'' : Session cap H} (h : Exchanged defaultMessageHandler [i] s s')
    (h' : Exchanged defaultMessageHandler packets s' s'') :
    Exchanged defaultMessageHandler (i :: packets) s s'' where
  delivered := by
    rw [h'.delivered, h.delivered, h.handlers, List.flatMap_singleton, List.flatMap_cons,
      List.append_assoc]
  written := by
    rw [h'.written, h.written, List.flatMap_singleton, List.flatMap_cons, List.append_assoc]
  kept := h.kept.trans h'.kept
  fps := h'.fps.trans h.fps
  nextPacketid := h'.nextPacketid.trans h.nextPacketid

section

variable {cuts : Nat → Int} (defaultMessageHandler : Option H)

theorem Session.cycle_inbound (hcap : cap ≤ 32767) (hcuts : Stream.Pieces cuts) {io : CycleIo}
    (hclean : io.Clean) (i : Inbound) (hfit : i.packet.bytes.length ≤ cap) {s : Session cap H}
    {post : List UInt8} (hrest : s.client.stream.rest = i.packet.bytes ++ post) :
    (s.cycle cuts defaultMessageHandler io).1 = headerType i.packet.header ∧
      (s.cycle cuts defaultMessageHandler io).2.client.stream.rest = post ∧
      (s.cycle cuts defaultMessageHandler io).2.client.readbuf.Starts i.packet.bytes ∧
      Exchanged defaultMessageHandler [i] s (s.cycle cuts defaultMessageHandler io).2 := by
  have hround := pahoCycle_inbound hcap hcuts hclean i hfit hrest
  have hdelivered := s.deliveries_inbound hcap hcuts i hfit hrest defaultMessageHandler io
  refine ⟨hround.rc, hround.rest, hround.readbuf, ?_, ?_, hround.kept, rfl, rfl⟩
  · simp only [Session.cycle, hdelivered, List.flatMap_singleton]
  · rw [List.flatMap_singleton]
    exact hround.written

/-- A wait goes through the packets that come before the one that is waited for. -/
theorem Session.waitfor_inbound (hcap : cap ≤ 32767) (hcuts : Stream.Pieces cuts)
    {packetType : Int} (packets : List Inbound) (last : Inbound)
    (hother : ∀ i ∈ packets, headerType i.packet.header ≠ packetType)
    (hlast : headerType last.packet.header = packetType)
    (hfit : ∀ i ∈ packets ++ [last], i.packet.bytes.length ≤ cap) (rc : Int)
    (ios : List CycleIo) (hrounds : packets.length < ios.length) (hclean : ∀ io ∈ ios, io.Clean)
    (s : Session cap H) (post : List UInt8)
    (hrest : s.client.stream.rest =
      (packets ++ [last]).flatMap (fun i => i.packet.bytes) ++ post) :
    let w := s.waitfor cuts defaultMessageHandler packetType rc ios
    w.1 = packetType ∧ w.2.client.stream.rest = post ∧
      w.2.client.readbuf.Starts last.packet.bytes ∧
      Exchanged defaultMessageHandler (packets ++ [last]) s w.2 := by
  induction packets generalizing rc ios s with
  | nil =>
      obtain ⟨io, ios, rfl⟩ := List.exists_cons_of_length_pos hrounds
      obtain ⟨hrc, hafter⟩ := s.cycle_inbound defaultMessageHandler hcap hcuts
        (hclean io List.mem_cons_self) last (hfit last (by simp)) (by simpa using hrest)
      simp only [Session.waitfor]
      rw [if_neg fun hnext => hnext.1 (hrc.trans hlast)]
      exact ⟨hrc.trans hlast, hafter⟩
  | cons i packets ih =>
      obtain ⟨io, ios, rfl⟩ := List.exists_cons_of_length_pos (Nat.zero_lt_of_lt hrounds)
      rw [List.cons_append, List.flatMap_cons, List.append_assoc] at hrest
      simp only [List.cons_append, List.forall_mem_cons] at hother hfit hclean
      obtain ⟨hrc, hpost, -, hround⟩ := s.cycle_inbound defaultMessageHandler hcap hcuts hclean.1 i
        hfit.1 hrest
      have htype : 0 ≤ headerType i.packet.header := Int.natCast_nonneg _
      obtain ⟨hfound, hafter, hstarts, hexchanged⟩ := ih hother.2 hfit.2
        (s.cycle cuts defaultMessageHandler io).1 ios (by simpa using hrounds) hclean.2 _ hpost
      simp only [Session.waitfor]
      rw [if_pos ⟨hrc ▸ hother.1, hrc ▸ htype⟩]
      exact ⟨hfound, hafter, hstarts, hround.cons hexchanged⟩

end

/-! ## Requests -/

theorem serialize_length {buflen remLen : Nat} {header : UInt8} {body : List UInt8}
    (h : 0 < (serialize buflen remLen header body).1) :
    (serialize buflen remLen header body).1 = (serialize buflen remLen header body).2.length := by
  unfold serialize at h ⊢
  split at h
  · exact absurd h (by decide)
  · rename_i hfits
    rw [if_neg hfits]

/-- A request that is sent is on the connection. -/
theorem Session.send_of_success {io : CycleIo} {r : Int × List UInt8} {s : Session cap H}
    (hlength : 0 < r.1 → r.1 = r.2.length) (h : (s.send io r).1 = success) :
    (s.send io r).2 = s.withClient (s.client.write r.2) rfl := by
  obtain ⟨len, bytes⟩ := r
  unfold Session.send at h ⊢
  split at h
  · exact absurd h (show failure ≠ success by decide)
  · rename_i hpos
    obtain rfl : len = bytes.length := hlength (Int.not_le.mp hpos)
    simp only [if_neg hpos, io.send_of_success io.sends bytes h]

/-- A command in an open session whose request is sent. -/
theorem command_of_sent {io : CycleIo}
    {request : Session cap H → (Int × List UInt8) × Session cap H}
    {answer : Session cap H → Int × Session cap H} {s : Session cap H}
    (hopen : s.client.isconnected = true)
    (hsent : ((request s).2.send io (request s).1).1 = success) :
    command io request answer s =
      let r := answer ((request s).2.send io (request s).1).2
      if r.1 = failure then (r.1, r.2.closeSession) else r := by
  simp only [command, hopen, hsent]
  rfl

/-! ## Answers -/

/-- An answer that `cycle` takes note of. -/
structure Answer (packetType : Int) where
  packet : Packet
  type : headerType packet.header = packetType
  noted : packetType ∈ [MsgType.connack, MsgType.puback, MsgType.pubcomp, MsgType.suback,
    MsgType.pingresp]

/-- The answer, among the other packets. -/
def Answer.inbound {packetType : Int} (a : Answer packetType) : Inbound :=
  .noted a.packet (by rw [a.type]; exact a.noted)

/-- The packets that come while a call waits: some others, and the answer. -/
structure Arrival (cap : Nat) (packetType : Int) where
  others : List Inbound
  answer : Answer packetType
  other : ∀ i ∈ others, headerType i.packet.header ≠ packetType
  fits : ∀ i ∈ others ++ [answer.inbound], i.packet.bytes.length ≤ cap

/-- What is on the connection. -/
def Arrival.bytes {packetType : Int} (a : Arrival cap packetType) : List UInt8 :=
  (a.others ++ [a.answer.inbound]).flatMap fun i => i.packet.bytes

/-- There are enough rounds before the timer expires, and nothing goes wrong in them. -/
structure Arrival.Served {packetType : Int} (a : Arrival cap packetType) (ios : List CycleIo) :
    Prop where
  rounds : a.others.length < ios.length
  clean : ∀ io ∈ ios, io.Clean

/-- The answer is neither delivered nor answered. -/
theorem Exchanged.of_arrival {defaultMessageHandler : Option H} {packetType : Int}
    {a : Arrival cap packetType} {s s' : Session cap H}
    (h : Exchanged defaultMessageHandler (a.others ++ [a.answer.inbound]) s s') :
    Exchanged defaultMessageHandler a.others s s' where
  delivered := by
    rw [h.delivered, List.flatMap_append, List.flatMap_singleton]
    simp [Answer.inbound, Inbound.deliveries]
  written := by
    rw [h.written, List.flatMap_append, List.flatMap_singleton]
    simp [Answer.inbound, Inbound.reply]
  kept := h.kept
  fps := h.fps
  nextPacketid := h.nextPacketid

/-- A command in an open session, whose request is sent and whose answer comes. -/
theorem command_arrival (hcap : cap ≤ 32767) {cuts : Nat → Int}
    (hcuts : Stream.Pieces cuts) (defaultMessageHandler : Option H) {packetType : Int}
    (a : Arrival cap packetType) {ios : List CycleIo} (hserved : a.Served ios) {io : CycleIo}
    {request : Session cap H → (Int × List UInt8) × Session cap H}
    (answered : Session cap H → Int × Session cap H) {s : Session cap H}
    (hopen : s.client.isconnected = true)
    (hlength : 0 < (request s).1.1 → (request s).1.1 = (request s).1.2.length)
    (hclient : (request s).2.client = s.client)
    (hsent : ((request s).2.send io (request s).1).1 = success) {post : List UInt8}
    (hrest : s.client.stream.rest = a.bytes ++ post) :
    ∃ w : Session cap H, w.client.stream.rest = post ∧
      Holds w.client.readbuf.byte 0 a.answer.packet.bytes ∧
      Exchanged defaultMessageHandler a.others
        ((request s).2.withClient ((request s).2.client.write (request s).1.2) rfl) w ∧
      command io request (Session.await cuts defaultMessageHandler packetType ios answered) s =
        if (answered w).1 = failure then ((answered w).1, (answered w).2.closeSession)
        else answered w := by
  have hwritten := Session.send_of_success hlength hsent
  have hstream : ((request s).2.send io (request s).1).2.client.stream.rest = a.bytes ++ post := by
    rw [hwritten, ← hrest, ← hclient]
    rfl
  obtain ⟨hfound, hpost, hstarts, hexchanged⟩ := Session.waitfor_inbound defaultMessageHandler hcap
    hcuts a.others a.answer.inbound a.other a.answer.type a.fits failure ios hserved.rounds
    hserved.clean _ post hstream
  refine ⟨_, hpost, Holds.of_starts hstarts (a.fits a.answer.inbound (by simp)),
    hwritten ▸ hexchanged.of_arrival, ?_⟩
  rw [command_of_sent hopen hsent]
  simp only [Session.await, hfound, if_true]

/-! ## MQTTPublish -/

/-- The wait of `MQTTPublish` for a quality of service of 1 or 2. -/
theorem mqttPublish_eq (cuts : Nat → Int) (defaultMessageHandler : Option H) {m : Outgoing}
    {packetType : Int} (hawaited : (Command.publish m : Command H).awaited = some packetType)
    (io : CallIo) : @mqttPublish cap H cuts defaultMessageHandler m io =
      command io.first (publishRequest io.first.bufSize m)
        (Session.await cuts defaultMessageHandler packetType io.rest acknowledged) := by
  simp only [Command.awaited] at hawaited
  rw [mqttPublish]
  split at hawaited
  · rename_i hqos
    rw [if_pos hqos, Option.some.inj hawaited]
  · split at hawaited
    · rename_i hqos₁ hqos₂
      rw [if_neg hqos₁, if_pos hqos₂, Option.some.inj hawaited]
    · cases hawaited

/-- `MQTTPublish` does not look at the packet identifier of the answer. -/
theorem acknowledged_of_holds {s : Session cap H} {p : Packet}
    (h : Holds s.client.readbuf.byte 0 p.bytes) : acknowledged s = (success, s) := by
  rw [acknowledged, mqttDeserializeAck_eq h]
  rfl

/-- A publication with quality of service 1 or 2, in an open session: when its packet is sent,
`MQTTPublish` succeeds with the first `PUBACK` or `PUBCOMP` that comes, of whatever
publication.  The packets before it are handled like any others. -/
theorem mqttPublish_answered (hcap : cap ≤ 32767) {cuts : Nat → Int}
    (hcuts : Stream.Pieces cuts) (defaultMessageHandler : Option H) (m : Outgoing)
    {packetType : Int} (hawaited : (Command.publish m : Command H).awaited = some packetType)
    (io : CallIo) {s : Session cap H} (hopen : s.client.isconnected = true)
    (hsent : ((Command.publish m).sent io.first s).1 = success) (a : Arrival cap packetType)
    (hserved : a.Served io.rest) {post : List UInt8}
    (hrest : s.client.stream.rest = a.bytes ++ post) :
    let r := mqttPublish cuts defaultMessageHandler m io s
    let q := publishRequest io.first.bufSize m s
    r.1 = success ∧ r.2.client.stream.rest = post ∧
      Exchanged defaultMessageHandler a.others (q.2.withClient (q.2.client.write q.1.2) rfl)
        r.2 := by
  obtain ⟨w, hpost, hholds, hexchanged, hcommand⟩ := command_arrival hcap hcuts
    defaultMessageHandler a hserved acknowledged hopen serialize_length
    (client_publishRequest io.first.bufSize m s) hsent hrest
  rw [mqttPublish_eq cuts defaultMessageHandler hawaited, hcommand, acknowledged_of_holds hholds]
  exact ⟨rfl, hpost, hexchanged⟩

/-- An open session with some bytes on the connection. -/
def waitingSession (bytes : List UInt8) : Session 80 Nat where
  client := { smallSubscriber.client with stream := ⟨bytes ++ [], 0⟩ }
  fps := smallSubscriber.fps
  filters_size := smallSubscriber.filters_size
  fps_size := smallSubscriber.fps_size
  nextPacketid := 1
  delivered := []

/-- A publication to the topic `a`. -/
def smallOutgoing : Outgoing := ⟨[97], [1], 1, false, 0⟩

theorem sent_smallOutgoing (bytes : List UInt8) :
    ((Command.publish smallOutgoing).sent wholeIo (waitingSession bytes)).1 = success := by
  have hserialize : (publishRequest wholeIo.bufSize smallOutgoing (waitingSession bytes)).1 =
      (8, [0x32, 6, 0, 1, 97, 0, 2, 1]) := by
    simp [publishRequest, smallOutgoing, waitingSession, Session.getNextPacketId, wholeIo,
      mqttSerializePublish, mqttSerializePublishLength, serialize, mqttPacketLen, mqttPacketEncode,
      headerByte, writeCString, writeInt]
  simp only [Command.sent, Command.request, hserialize, Session.send]
  exact wholeIo_send _ (by decide) (by decide)

theorem headerType_puback (packetid : UInt16) :
    headerType (ackPacket 4 packetid).header = MsgType.puback :=
  (headerByte_fields 4 false 0 false).1

/-- The acknowledgement of a publication with another packet identifier. -/
def otherPuback : Answer MsgType.puback :=
  ⟨ackPacket 4 9, headerType_puback 9, List.mem_cons_of_mem _ List.mem_cons_self⟩

theorem smallPublish_ne_puback :
    headerType (Inbound.publish smallPublish smallPublish_short).packet.header ≠
      MsgType.puback := by
  rw [Inbound.packet, packetOf, smallPublish.header_fields.1]
  decide

theorem smallPublish_otherPuback_fit : ∀ i ∈ [Inbound.publish smallPublish smallPublish_short] ++
    [otherPuback.inbound], i.packet.bytes.length ≤ 80 := by
  intro i hi
  have hbody : i.packet.body.length < 10 := by
    revert i
    decide
  rw [Packet.length_bytes_of_short (by omega)]
  omega

/-- A message, and the acknowledgement. -/
def smallArrival : Arrival 80 MsgType.puback where
  others := [.publish smallPublish smallPublish_short]
  answer := otherPuback
  other := List.forall_mem_singleton.mpr smallPublish_ne_puback
  fits := smallPublish_otherPuback_fit

/-- The message is delivered and the publication succeeds. -/
theorem mqttPublish_answered_smallArrival :
    (mqttPublish (fun _ => 1) none smallOutgoing ⟨wholeIo, [wholeIo, wholeIo]⟩
        (waitingSession smallArrival.bytes)).1 = success :=
  (mqttPublish_answered (by decide) (fun _ => le_refl 1) none smallOutgoing rfl
    ⟨wholeIo, [wholeIo, wholeIo]⟩ rfl (sent_smallOutgoing _) smallArrival
    ⟨by decide, by simp [clean_wholeIo]⟩ rfl).1

/-! ## MQTTSubscribe -/

/-- The subscription is granted: there are no more than two return codes, and the first of
them, if there is one, is no refusal. -/
def Granted (body : List UInt8) : Prop :=
  (body.drop 2).length ≤ 2 ∧ (body.drop 2).headD 0 ≠ 0x80

instance (body : List UInt8) : Decidable (Granted body) :=
  inferInstanceAs (Decidable (_ ∧ _))

/-- The first of the codes that `MQTTDeserialize_suback` writes. -/
theorem headD_subackLoop (maxcount : Nat) (codes : List UInt8) :
    (subackLoop maxcount 0 codes).2.headD 0 = codes.headD 0 := by
  cases codes with
  | nil => rfl
  | cons code codes => simp [subackLoop]

theorem Session.handlers_withHandlers (s : Session cap H) (t : MessageHandlers H) :
    (s.withHandlers t).handlers = t := by
  have hslots : ∀ slots : List (Slot H),
      List.zipWith Slot.mk (slots.map Slot.topicFilter) (slots.map Slot.fp) = slots := by
    intro slots
    induction slots with
    | nil => rfl
    | cons slot slots ih => rw [List.map_cons, List.map_cons, List.zipWith_cons_cons, ih]
  simp only [Subscriber.handlers, Session.withHandlers, hslots]

/-- In an open session, when the request is sent and a `SUBACK` comes: if the subscription is
granted, the handler is set and `MQTTSubscribe` returns the result of that.  If it is refused
or the packet has too many return codes, no handler is set, and `MQTTSubscribe` succeeds. -/
theorem mqttSubscribe_answered (hcap : cap ≤ 32767) {cuts : Nat → Int}
    (hcuts : Stream.Pieces cuts) (defaultMessageHandler : Option H) (topicFilter : List UInt8)
    (qos : Nat) (messageHandler : Option H) (io : CallIo) {s : Session cap H}
    (hopen : s.client.isconnected = true)
    (hsent : ((Command.subscribe topicFilter qos messageHandler).sent io.first s).1 = success)
    (a : Arrival cap MsgType.suback) (hserved : a.Served io.rest) {post : List UInt8}
    (hrest : s.client.stream.rest = a.bytes ++ post) :
    let r := mqttSubscribe cuts defaultMessageHandler topicFilter qos messageHandler io s
    let set := mqttSetMessageHandler s.handlers topicFilter messageHandler
    (Granted a.answer.packet.body → r.1 = set.1 ∧ (set.1 = success → r.2.handlers = set.2)) ∧
      (¬Granted a.answer.packet.body → r.1 = success ∧ r.2.handlers = s.handlers) := by
  have hrequest : ((subscribeRequest io.first.bufSize topicFilter qos s).2.send io.first
      (subscribeRequest io.first.bufSize topicFilter qos s).1).1 = success := hsent
  obtain ⟨w, hpost, hholds, hexchanged, hcommand⟩ := command_arrival hcap hcuts
    defaultMessageHandler a hserved (subscribed topicFilter messageHandler) hopen serialize_length
    rfl hrequest hrest
  have hcodes := mqttDeserializeSuback_eq 1 hholds a.answer.type
  have hcount : (subackLoop 1 0 (a.answer.packet.body.drop 2)).1 = 1 ↔
      (a.answer.packet.body.drop 2).length ≤ 2 := by
    rw [subackLoop_rc 1 0 _ (by decide)]
    simp
  have hfirst := headD_subackLoop 1 (a.answer.packet.body.drop 2)
  have hhandlers : w.handlers = s.handlers := hexchanged.handlers
  have hsubscribed : subscribed topicFilter messageHandler w =
      if Granted a.answer.packet.body then w.setMessageHandler topicFilter messageHandler
      else (success, w) := by
    simp only [subscribed, hcodes, hcount, hfirst]
    exact if_congr Iff.rfl rfl rfl
  rw [mqttSubscribe, hcommand, hsubscribed]
  constructor
  · intro hgranted
    simp only [if_pos hgranted, Session.setMessageHandler, hhandlers]
    refine ⟨by split <;> rfl, fun hset => ?_⟩
    rw [if_neg (by rw [hset]; decide)]
    exact w.handlers_withHandlers _
  · intro hrefused
    simp only [if_neg hrefused]
    exact ⟨rfl, hhandlers⟩

/-- A refusal. -/
def refusal : Arrival 80 MsgType.suback where
  others := []
  answer := ⟨⟨0x90, [3], [0, 2, 0x80], .last 3 (by decide), by decide⟩, rfl, by decide⟩
  other := by simp
  fits := by decide

theorem sent_subscribe (bytes : List UInt8) :
    ((Command.subscribe [98] 1 (some 2)).sent wholeIo (waitingSession bytes)).1 = success := by
  have hserialize : (subscribeRequest wholeIo.bufSize [98] 1 (waitingSession bytes)).1 =
      (8, [0x82, 6, 0, 2, 0, 1, 98, 1]) := by
    simp [subscribeRequest, waitingSession, Session.getNextPacketId, wholeIo,
      mqttSerializeSubscribe, serialize, mqttPacketLen, mqttPacketEncode, headerByte, writeCString,
      writeInt]
  simp only [Command.sent, Command.request, hserialize, Session.send]
  exact wholeIo_send _ (by decide) (by decide)

/-- `MQTTSubscribe` succeeds without a subscription. -/
theorem mqttSubscribe_answered_refusal :
    let r := mqttSubscribe (fun _ => 1) none [98] 1 (some 2) ⟨wholeIo, [wholeIo]⟩
      (waitingSession refusal.bytes)
    r.1 = success ∧ r.2.handlers = (waitingSession refusal.bytes).handlers :=
  (mqttSubscribe_answered (by decide) (fun _ => le_refl 1) none [98] 1 (some 2)
    ⟨wholeIo, [wholeIo]⟩ rfl (sent_subscribe _) refusal ⟨by decide, by simp [clean_wholeIo]⟩
    rfl).2 (by decide)

/-! ## The session behind a call -/

theorem awaited_nonneg {c : Command H} {packetType : Int} (h : c.awaited = some packetType) :
    0 ≤ packetType := by
  cases c with
  | subscribe topicFilter qos messageHandler => exact Option.some.inj h ▸ by decide
  | unsubscribe topicFilter => exact Option.some.inj h ▸ by decide
  | publish m =>
      simp only [Command.awaited] at h
      split at h
      · exact Option.some.inj h ▸ by decide
      · split at h
        · exact Option.some.inj h ▸ by decide
        · cases h

/-- A command that succeeds leaves the session open if and only if every packet that it has
read while it waited is one that `cycle` has a case for.  Any other packet closes the session,
and the wait goes on. -/
theorem command_success_open_iff (cuts : Nat → Int) (defaultMessageHandler : Option H)
    (c : Command H) {packetType : Int} (hawaited : c.awaited = some packetType) (io : CallIo)
    (s : Session cap H) (hok : (c.run cuts defaultMessageHandler io s).1 = success) :
    (c.run cuts defaultMessageHandler io s).2.client.isconnected = true ↔
      ∀ t ∈ (c.sent io.first s).2.waitReads cuts defaultMessageHandler packetType io.rest,
        Expected t := by
  have hne : (c.run cuts defaultMessageHandler io s).1 ≠ failure := by
    rw [hok]
    decide
  cases c with
  | subscribe topicFilter qos messageHandler =>
      obtain rfl := Option.some.inj hawaited
      exact isconnected_command (by decide) (fun _ => rfl)
        (isconnected_subscribed topicFilter messageHandler) hne
  | unsubscribe topicFilter =>
      obtain rfl := Option.some.inj hawaited
      exact isconnected_command (by decide) (fun _ => rfl) (isconnected_unsubscribed topicFilter)
        hne
  | publish m =>
      simp only [Command.run, mqttPublish_eq cuts defaultMessageHandler hawaited] at hne ⊢
      exact isconnected_command (awaited_nonneg hawaited)
        (fun s => congrArg _ (client_publishRequest io.first.bufSize m s))
        isconnected_acknowledged hne

theorem success_smallArrival :
    ((Command.publish smallOutgoing).run (fun _ => 1) none ⟨wholeIo, [wholeIo, wholeIo]⟩
      (waitingSession smallArrival.bytes)).1 = success := by
  obtain ⟨w, -, hholds, -, hcommand⟩ := command_arrival (by decide) (fun _ => le_refl 1) none
    smallArrival ⟨show 1 < [wholeIo, wholeIo].length by decide, by simp [clean_wholeIo]⟩
    acknowledged rfl serialize_length (client_publishRequest 80 smallOutgoing _)
    (sent_smallOutgoing smallArrival.bytes) rfl
  rw [acknowledged_of_holds hholds] at hcommand
  rw [Command.run, mqttPublish_eq (fun _ => 1) none rfl]
  exact congrArg Prod.fst hcommand

/-- Nothing but a message and the acknowledgement has come. -/
theorem command_success_open_iff_smallArrival :
    ((Command.publish smallOutgoing).run (fun _ => 1) none ⟨wholeIo, [wholeIo, wholeIo]⟩
        (waitingSession smallArrival.bytes)).2.client.isconnected = true ↔
      ∀ t ∈ ((Command.publish smallOutgoing).sent wholeIo
        (waitingSession smallArrival.bytes)).2.waitReads (fun _ => 1) none MsgType.puback
          [wholeIo, wholeIo], Expected t :=
  command_success_open_iff (fun _ => 1) none (.publish smallOutgoing) rfl
    ⟨wholeIo, [wholeIo, wholeIo]⟩ (waitingSession smallArrival.bytes) success_smallArrival

end Uiso.Mqtt
