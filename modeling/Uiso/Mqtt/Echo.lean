/-
  Mqtt/Echo.lean --- `prvMQTTEchoTask` of src/mqtt/mqtt_client.c.

  The task connects and subscribes once.  Then it loops: it runs `MQTTYield` when there is
  data on the connection, and `MQTTPublish` when its timer has fired.  It looks at none of
  the results.

  `echo_after_failure` says what this amounts to.  After a publication that has failed there
  is no other that succeeds, and no message arrives any more.
-/
import Mathlib.Data.Nat.Digits.Defs
import Uiso.Mqtt.Exchange

set_option autoImplicit false

namespace Uiso.Mqtt

open Uiso.Foundation

variable {cap : Nat} {H : Type}

/-! ## What all calls preserve -/

section

variable {cuts : Nat → Int} {defaultMessageHandler : Option H} {P : Session cap H → Prop}

theorem Session.waitfor_preserves
    (hcycle : ∀ io s, P s → P (s.cycle cuts defaultMessageHandler io).2) (packetType rc : Int)
    (ios : List CycleIo) {s : Session cap H} (h : P s) :
    P (s.waitfor cuts defaultMessageHandler packetType rc ios).2 := by
  induction ios generalizing rc s with
  | nil => exact h
  | cons io ios ih =>
      simp only [Session.waitfor]
      split
      · exact ih _ (hcycle io s h)
      · exact hcycle io s h

theorem Session.await_preserves
    (hcycle : ∀ io s, P s → P (s.cycle cuts defaultMessageHandler io).2) (packetType : Int)
    (ios : List CycleIo) {answered : Session cap H → Int × Session cap H}
    (hanswered : ∀ s, P s → P (answered s).2) (s : Session cap H) (h : P s) :
    P (s.await cuts defaultMessageHandler packetType ios answered).2 := by
  have hwait := Session.waitfor_preserves hcycle packetType failure ios h
  simp only [Session.await]
  split
  · exact hanswered _ hwait
  · exact hwait

theorem command_preserves {io : CycleIo}
    {request : Session cap H → (Int × List UInt8) × Session cap H}
    {answer : Session cap H → Int × Session cap H} (hclose : ∀ s, P s → P s.closeSession)
    (hsend : ∀ r s, P s → P (s.send io r).2) (hrequest : ∀ s, P s → P (request s).2)
    (hanswer : ∀ s, P s → P (answer s).2) {s : Session cap H} (h : P s) :
    P (command io request answer s).2 := by
  unfold command
  simp only
  generalize hr : (if s.client.isconnected = false then (failure, s) else _ :
    Int × Session cap H) = r
  have hrest : P r.2 := by
    subst hr
    split
    · exact h
    · split
      · exact hsend _ _ (hrequest s h)
      · exact hanswer _ (hsend _ _ (hrequest s h))
  split
  · exact hclose r.2 hrest
  · exact hrest

end

/-! ## Clean sessions -/

/-- `cleansession` -/
def Session.Cleans (s : Session cap H) : Prop := s.client.cleansession = true

theorem cleansession_mqttCloseSession (c : MqttClient cap) :
    (mqttCloseSession c).cleansession = c.cleansession := by
  unfold mqttCloseSession
  simp only
  split <;> rfl

theorem Session.Cleans.closeSession (s : Session cap H) (h : s.Cleans) : s.closeSession.Cleans :=
  (cleansession_mqttCloseSession s.client).trans h

theorem Session.Cleans.send {io : CycleIo} (r : Int × List UInt8) (s : Session cap H)
    (h : s.Cleans) : (s.send io r).2.Cleans := by
  unfold Session.send
  split
  · exact h
  · exact h

theorem Session.Cleans.cycle {cuts : Nat → Int} {defaultMessageHandler : Option H} (io : CycleIo)
    (s : Session cap H) (h : s.Cleans) : (s.cycle cuts defaultMessageHandler io).2.Cleans := by
  have hcases := cycle_cases cuts
    (cycleEnv io (readPacket cuts s.client.toClient).2.readbuf) s.client
  have hexit : ∀ c : MqttClient cap, (exitSession c).cleansession = c.cleansession := by
    intro c
    unfold exitSession
    split
    · exact cleansession_mqttCloseSession c
    · rfl
  simp only [Session.Cleans, Session.cycle, Subscriber.cycle, pahoCycle] at h ⊢
  generalize Mqtt.cycle cuts _ s.client = r at hcases ⊢
  cases hcases with
  | known expected kept => exact kept.cleansession.trans h
  | failed expected kept => exact (hexit _).trans (kept.cleansession.trans h)
  | unknown unexpected kept => exact (hexit _).trans (kept.cleansession.trans h)

theorem Session.Cleans.command {cuts : Nat → Int} {defaultMessageHandler : Option H}
    (c : Command H) (io : CallIo) {s : Session cap H} (h : s.Cleans) :
    (c.run cuts defaultMessageHandler io s).2.Cleans := by
  cases c with
  | subscribe topicFilter qos messageHandler =>
      refine command_preserves Session.Cleans.closeSession Session.Cleans.send (fun _ hs => hs)
        (Session.await_preserves Session.Cleans.cycle _ _ ?_) h
      intro s hs
      simp only [subscribed]
      split <;> exact hs
  | unsubscribe topicFilter =>
      refine command_preserves Session.Cleans.closeSession Session.Cleans.send (fun _ hs => hs)
        (Session.await_preserves Session.Cleans.cycle _ _ ?_) h
      intro s hs
      unfold unsubscribed
      split <;> exact hs
  | publish m =>
      have hanswered : ∀ s : Session cap H, s.Cleans → (acknowledged s).2.Cleans := by
        intro s hs
        unfold acknowledged
        split <;> exact hs
      refine command_preserves Session.Cleans.closeSession Session.Cleans.send ?_ ?_ h
      · intro s hs
        exact (congrArg MqttClient.cleansession
          (client_publishRequest io.first.bufSize m s)).trans hs
      · split
        · exact Session.await_preserves Session.Cleans.cycle _ _ hanswered
        · split
          · exact Session.await_preserves Session.Cleans.cycle _ _ hanswered
          · exact fun _ hs => hs

/-! ## A session that is closed and clean -/

/-- The session is closed, and no handler is left. -/
structure Session.Cut (s : Session cap H) : Prop where
  closed : s.client.isconnected = false
  noFilter : ∀ f ∈ s.client.topicFilters, f = none

theorem Session.cut_closeSession {s : Session cap H} (h : s.Cleans) : s.closeSession.Cut := by
  refine ⟨s.isconnected_closeSession, ?_⟩
  have hclean : s.closeSession.client.topicFilters = s.client.topicFilters.map fun _ => none := by
    simp only [Session.closeSession, Session.withClient, mqttCloseSession]
    rw [if_pos (show s.client.cleansession = true from h)]
    rfl
  rw [hclean]
  simp

/-- Without a handler and a default one, no message is delivered. -/
theorem Session.Cut.deliveries {s : Session cap H} (h : s.Cut) (cuts : Nat → Int)
    (io : CycleIo) : s.toSubscriber.deliveries cuts none io = [] := by
  have hcalled : ∀ topicName,
      s.handlers.slots.filterMap (Slot.called topicName) = [] := by
    intro topicName
    rw [List.filterMap_eq_nil_iff]
    intro slot hslot
    have hzip : slot ∈ List.zipWith Slot.mk s.client.topicFilters s.fps := hslot
    rw [← List.map_uncurry_zip_eq_zipWith] at hzip
    obtain ⟨⟨f, fp⟩, hmem, rfl⟩ := List.mem_map.mp hzip
    obtain rfl := h.noFilter f (List.of_mem_zip hmem).1
    rfl
  simp only [Subscriber.deliveries]
  split
  · split
    · simp [deliverMessage, hcalled]
    · rfl
  · rfl

/-- A round answers packets and sends pings also without a session, but it does not open
one. -/
theorem Session.Cut.cycle (cuts : Nat → Int) (io : CycleIo) {s : Session cap H} (h : s.Cut) :
    (s.cycle cuts none io).2.Cut ∧ (s.cycle cuts none io).2.delivered = s.delivered := by
  have hcases := cycle_cases cuts
    (cycleEnv io (readPacket cuts s.client.toClient).2.readbuf) s.client
  have hcut : ∀ c : MqttClient cap, SessionKept s.client c →
      exitSession c = c ∧ c.isconnected = false ∧ ∀ f ∈ c.topicFilters, f = none := by
    intro c kept
    have hclosed := kept.isconnected.trans h.closed
    refine ⟨?_, hclosed, by rw [kept.topicFilters]; exact h.noFilter⟩
    simp [exitSession, hclosed]
  constructor
  · have hclient : (s.cycle cuts none io).2.client = (Mqtt.cycle cuts
      (cycleEnv io (readPacket cuts s.client.toClient).2.readbuf) s.client).2 := rfl
    generalize Mqtt.cycle cuts _ s.client = r at hcases hclient
    constructor
    · rw [hclient]
      cases hcases with
      | known expected kept => exact (hcut _ kept).2.1
      | failed expected kept => rw [(hcut _ kept).1]; exact (hcut _ kept).2.1
      | unknown unexpected kept => rw [(hcut _ kept).1]; exact (hcut _ kept).2.1
    · rw [hclient]
      cases hcases with
      | known expected kept => exact (hcut _ kept).2.2
      | failed expected kept => rw [(hcut _ kept).1]; exact (hcut _ kept).2.2
      | unknown unexpected kept => rw [(hcut _ kept).1]; exact (hcut _ kept).2.2
  · simp only [Session.cycle, h.deliveries, List.append_nil]

theorem Session.Cut.closeSession {s : Session cap H} (h : s.Cut) : s.closeSession.Cut := by
  refine ⟨s.isconnected_closeSession, ?_⟩
  simp only [Session.closeSession, Session.withClient, mqttCloseSession]
  split
  · simp [mqttCleanSession]
  · exact h.noFilter

/-- Without a session, a command fails and does nothing but close the session again. -/
theorem Command.run_of_closed (cuts : Nat → Int) (defaultMessageHandler : Option H)
    (c : Command H) (io : CallIo) {s : Session cap H} (h : s.client.isconnected = false) :
    c.run cuts defaultMessageHandler io s = (failure, s.closeSession) := by
  cases c with
  | subscribe topicFilter qos messageHandler => simp [Command.run, mqttSubscribe, command, h]
  | unsubscribe topicFilter => simp [Command.run, mqttUnsubscribe, command, h]
  | publish m => simp [Command.run, mqttPublish, command, h]

/-- A command that has failed has closed the session. -/
theorem Command.run_of_failure {cuts : Nat → Int} {defaultMessageHandler : Option H}
    {c : Command H} {io : CallIo} {s : Session cap H}
    (h : (c.run cuts defaultMessageHandler io s).1 = failure) :
    ∃ s' : Session cap H, (c.run cuts defaultMessageHandler io s).2 = s'.closeSession := by
  have hcases : ∀ request answer, (command io.first request answer s).1 = failure →
      ∃ s' : Session cap H, (command io.first request answer s).2 = s'.closeSession := by
    intro request answer hfailure
    rcases command_cases io.first request answer s with ⟨-, hclosed⟩ | ⟨-, -, -, hne⟩
    · exact hclosed
    · exact absurd hfailure hne
  cases c with
  | subscribe topicFilter qos messageHandler => exact hcases _ _ h
  | unsubscribe topicFilter => exact hcases _ _ h
  | publish m => exact hcases _ _ h

theorem Session.Cleans.cut_of_failure {cuts : Nat → Int} {defaultMessageHandler : Option H}
    {c : Command H} {io : CallIo} {s : Session cap H} (hclean : s.Cleans)
    (h : (c.run cuts defaultMessageHandler io s).1 = failure) :
    (c.run cuts defaultMessageHandler io s).2.Cut := by
  have hafter : (c.run cuts defaultMessageHandler io s).2.Cleans := hclean.command c io
  obtain ⟨s', hclosed⟩ := Command.run_of_failure h
  rw [hclosed] at hafter ⊢
  exact Session.cut_closeSession ((cleansession_mqttCloseSession s'.client).symm.trans hafter)

/-! ## Runs of calls -/

/-- A call that does not open a session. -/
def Call.Stays : Call H → Prop
  | connect _ => False
  | command _ => True
  | yield => True
  | disconnect => True

/-- A session that is cut stays cut until `MQTTConnect` is called: commands fail, and nothing
is delivered. -/
theorem Session.Cut.call (cuts : Nat → Int) {call : Call H} (hstays : call.Stays) (io : CallIo)
    {s : Session cap H} (h : s.Cut) :
    (call.run cuts none io s).2.Cut ∧ (call.run cuts none io s).2.delivered = s.delivered ∧
      ∀ c, call = .command c → (call.run cuts none io s).1 = failure := by
  cases call with
  | connect options => exact absurd hstays id
  | command c =>
      rw [Call.run, Command.run_of_closed cuts none c io h.closed]
      exact ⟨h.closeSession, rfl, fun _ _ => rfl⟩
  | yield =>
      have hyield := yieldLoop_preserves
        (P := fun s' : Session cap H => s'.Cut ∧ s'.delivered = s.delivered)
        (fun io s' hs' => ⟨(hs'.1.cycle cuts io).1, (hs'.1.cycle cuts io).2.trans hs'.2⟩)
        io.first io.rest ⟨h, rfl⟩
      exact ⟨hyield.1, hyield.2, nofun⟩
  | disconnect =>
      have hsent : (s.send io.first (mqttSerializeZero io.first.bufSize 14)).2.Cut ∧
          (s.send io.first (mqttSerializeZero io.first.bufSize 14)).2.delivered =
            s.delivered := by
        unfold Session.send
        split
        · exact ⟨h, rfl⟩
        · exact ⟨⟨h.closed, h.noFilter⟩, rfl⟩
      exact ⟨hsent.1.closeSession, hsent.2, nofun⟩

theorem Session.Cut.runCalls (cuts : Nat → Int) (calls : List (Call H × CallIo))
    (hstay : ∀ p ∈ calls, p.1.Stays) {s : Session cap H} (h : s.Cut) :
    (s.runCalls cuts none calls).2.Cut ∧
      (s.runCalls cuts none calls).2.delivered = s.delivered ∧
      ∀ c rc, (Call.command c, rc) ∈ (s.runCalls cuts none calls).1 → rc = failure := by
  induction calls generalizing s with
  | nil => exact ⟨h, rfl, fun c rc hmem => absurd hmem (by simp [Session.runCalls])⟩
  | cons p calls ih =>
      rw [List.forall_mem_cons] at hstay
      obtain ⟨hcut, hdelivered, hfails⟩ := h.call cuts hstay.1 p.2
      obtain ⟨hlast, hsame, hrest⟩ := ih hstay.2 hcut
      refine ⟨hlast, hsame.trans hdelivered, fun c rc hmem => ?_⟩
      rcases List.mem_cons.mp hmem with hfirst | hlater
      · obtain ⟨hcall, hrc⟩ := Prod.mk.inj hfirst
        rw [hrc]
        exact hfails c hcall.symm
      · exact hrest c rc hlater

theorem Session.Cleans.call (cuts : Nat → Int) {call : Call H} (hstays : call.Stays)
    (defaultMessageHandler : Option H) (io : CallIo) {s : Session cap H} (h : s.Cleans) :
    (call.run cuts defaultMessageHandler io s).2.Cleans := by
  cases call with
  | connect options => exact absurd hstays id
  | command c => exact h.command c io
  | yield => exact yieldLoop_preserves Session.Cleans.cycle _ _ h
  | disconnect => exact Session.Cleans.closeSession _ (h.send _ _)

/-- After a command that has failed, in a clean session, the session is cut. -/
theorem Session.Cleans.runCalls (cuts : Nat → Int) (calls : List (Call H × CallIo))
    (hstay : ∀ p ∈ calls, p.1.Stays) {s : Session cap H} (h : s.Cleans) {c : Command H}
    (hfailed : (Call.command c, failure) ∈ (s.runCalls cuts none calls).1) :
    (s.runCalls cuts none calls).2.Cut := by
  induction calls generalizing s with
  | nil => exact absurd hfailed (by simp [Session.runCalls])
  | cons p calls ih =>
      rw [List.forall_mem_cons] at hstay
      rcases List.mem_cons.mp hfailed with hfirst | hlater
      · obtain ⟨call, io⟩ := p
        obtain ⟨rfl, hrc⟩ := Prod.mk.inj hfirst
        exact ((h.cut_of_failure hrc.symm).runCalls cuts calls hstay.2).1
      · exact ih hstay.2 (h.call cuts hstay.1 none p.2) hlater

theorem Session.runCalls_append (cuts : Nat → Int) (defaultMessageHandler : Option H)
    (before after : List (Call H × CallIo)) (s : Session cap H) :
    let r := s.runCalls cuts defaultMessageHandler before
    let r' := r.2.runCalls cuts defaultMessageHandler after
    s.runCalls cuts defaultMessageHandler (before ++ after) = (r.1 ++ r'.1, r'.2) := by
  induction before generalizing s with
  | nil => rfl
  | cons p before ih => simp only [List.cons_append, Session.runCalls, ih]

/-! ## The task -/

/-- The handler of the task. -/
inductive EchoHandler where
  | messageArrived
  deriving DecidableEq, Repr

/-- The characters of a string constant. -/
def mqttChars (text : String) : List UInt8 := text.toList.map Char.toUInt8

/-- `connectData` -/
def echoOptions : ConnectData :=
  { defaultOptions with
    keepAliveInterval := 10 * 60
    cleansession := true
    mqttVersion := 3
    clientID := mqttChars "LlobetianTecnologica" }

/-- `payload`, without the zero byte at its end. -/
def echoPayload (count : Nat) : List UInt8 :=
  mqttChars "message number " ++ (Nat.toDigits 10 count).map Char.toUInt8

/-- `message`, with the topic; `message.id` is not set. -/
def echoMessage (id count : Nat) : Outgoing :=
  ⟨mqttChars "FreeRTOS/sample/a", echoPayload count, 1, false, id⟩

/-- What one turn of the loop meets: the bits of the notification, and what the calls meet. -/
structure EchoTurn where
  messageReception : Bool
  sensorTimer : Bool
  yieldIo : CallIo
  publishIo : CallIo
  unsetId : Nat

/-- The calls of one turn. -/
def EchoTurn.calls (t : EchoTurn) (count : Nat) : List (Call EchoHandler × CallIo) :=
  (if t.messageReception then [(.yield, t.yieldIo)] else []) ++
    if t.sensorTimer then [(.command (.publish (echoMessage t.unsetId count)), t.publishIo)] else []

/-- The calls of the loop. -/
def echoLoop : Nat → List EchoTurn → List (Call EchoHandler × CallIo)
  | _, [] => []
  | count, t :: turns => t.calls count ++ echoLoop (count + 1) turns

/-- The client when the task has connected. -/
def echoConnect (cuts : Nat → Int) (io : CallIo) (memory : Session cap EchoHandler) :
    Session cap EchoHandler :=
  (mqttConnect cuts none (some echoOptions) io (mqttClientInit memory)).2

/-- The calls that come then: `MQTTSubscribe`, and those of the loop. -/
def echoCalls (subscribeIo : CallIo) (turns : List EchoTurn) :
    List (Call EchoHandler × CallIo) :=
  (.command (.subscribe (mqttChars "FreeRTOS/sample/#") 1 (some .messageArrived)), subscribeIo) ::
    echoLoop 0 turns

/-- `prvMQTTEchoTask`: its calls behind `MQTTConnect` with their results, and the client. -/
def echoTask (cuts : Nat → Int) (connectIo subscribeIo : CallIo) (turns : List EchoTurn)
    (memory : Session cap EchoHandler) :
    List (Call EchoHandler × Int) × Session cap EchoHandler :=
  (echoConnect cuts connectIo memory).runCalls cuts none (echoCalls subscribeIo turns)

theorem serialize_pos {buflen remLen : Nat} {header : UInt8} {body : List UInt8}
    (h : mqttPacketLen remLen ≤ buflen) : 0 < (serialize buflen remLen header body).1 := by
  rw [serialize, if_neg (by omega)]
  simp only [List.length_append, List.length_cons]
  omega

/-- The text of a message has room in `payload[30]`, and its packet in `sendbuf[80]`, as long
as `count` does not overflow. -/
theorem echoMessage_fits {count : Nat} (hcount : count < 2 ^ 31) (id : Nat) (s : Session cap H) :
    (echoPayload count).length + 1 ≤ 30 ∧
      0 < (publishRequest 80 (echoMessage id count) s).1.1 := by
  have hdigits := Nat.toDigits_length 10 count 10 (by decide) (by omega)
  have hpayload : (echoPayload count).length ≤ 25 := by
    rw [echoPayload, List.length_append, List.length_map,
      show (mqttChars "message number ").length = 15 by decide]
    omega
  refine ⟨by omega, ?_⟩
  have hlen : mqttSerializePublishLength (echoMessage id count).qos
      (echoMessage id count).topicName.length (echoMessage id count).payload.length ≤ 46 := by
    simp only [echoMessage, mqttSerializePublishLength, Nat.zero_lt_one, if_true,
      show (mqttChars "FreeRTOS/sample/a").length = 17 by decide]
    omega
  exact serialize_pos (by rw [mqttPacketLen, if_pos (by omega)]; omega)

/-- So have all messages of the loop, for that many turns. -/
theorem echoLoop_fits {turns : List EchoTurn} {count : Nat}
    (hcount : count + turns.length ≤ 2 ^ 31) {m : Outgoing} {io : CallIo}
    (hcall : (.command (.publish m), io) ∈ echoLoop count turns) (s : Session cap H) :
    m.payload.length + 1 ≤ 30 ∧ 0 < (publishRequest 80 m s).1.1 := by
  induction turns generalizing count with
  | nil => cases hcall
  | cons t turns ih =>
      rw [List.length_cons] at hcount
      rcases List.mem_append.mp hcall with hturn | hlater
      · have hmessage : m = echoMessage t.unsetId count := by
          rcases List.mem_append.mp hturn with hyield | hpublish
          · split at hyield
            · cases List.mem_singleton.mp hyield
            · cases hyield
          · split at hpublish
            · cases List.mem_singleton.mp hpublish
              rfl
            · cases hpublish
        rw [hmessage]
        exact echoMessage_fits (by omega) t.unsetId s
      · exact ih (by omega) hlater

/-! ## Whole runs of the task -/

theorem Session.Cleans.leaveConnect {r : Int × Session cap H} (h : r.2.Cleans) :
    (leaveConnect r).2.Cleans := by
  unfold Mqtt.leaveConnect
  split <;> exact h

/-- `MQTTConnect` in a closed session makes it a clean one, whether it succeeds or not. -/
theorem cleans_mqttConnect {cuts : Nat → Int} {defaultMessageHandler : Option H}
    {options : ConnectData} (hoptions : options.cleansession = true) {io : CallIo}
    {s : Session cap H} (h : s.client.isconnected = false) :
    (mqttConnect cuts defaultMessageHandler (some options) io s).2.Cleans := by
  have hclean : (s.withOptions options).Cleans := hoptions
  rw [mqttConnect, if_neg (by rw [h]; decide)]
  refine Session.Cleans.leaveConnect ?_
  split
  · exact hclean.send _ _
  · refine Session.await_preserves Session.Cleans.cycle _ _ ?_ _ (hclean.send _ _)
    intro s hs
    simp only [connackRead]
    split
    · split <;> exact hs
    · exact hs

theorem echoLoop_append (count : Nat) (before after : List EchoTurn) :
    echoLoop count (before ++ after) =
      echoLoop count before ++ echoLoop (count + before.length) after := by
  induction before generalizing count with
  | nil => rfl
  | cons t before ih =>
      rw [List.cons_append, echoLoop, echoLoop, ih, List.append_assoc, List.length_cons,
        Nat.add_assoc, Nat.add_comm 1]

theorem stays_echoLoop (count : Nat) (turns : List EchoTurn) :
    ∀ p ∈ echoLoop count turns, p.1.Stays := by
  induction turns generalizing count with
  | nil => exact fun p hp => absurd hp (by simp [echoLoop])
  | cons t turns ih =>
      intro p hp
      rcases List.mem_append.mp hp with hturn | hlater
      · rcases List.mem_append.mp hturn with hyield | hpublish
        · split at hyield
          · obtain rfl := List.mem_singleton.mp hyield
            trivial
          · cases hyield
        · split at hpublish
          · obtain rfl := List.mem_singleton.mp hpublish
            trivial
          · cases hpublish
      · exact ih (count + 1) p hlater

theorem stays_echoCalls (io : CallIo) (turns : List EchoTurn) :
    ∀ p ∈ echoCalls io turns, p.1.Stays := by
  rw [echoCalls, List.forall_mem_cons]
  exact ⟨trivial, stays_echoLoop 0 turns⟩

/-- Once `MQTTSubscribe` or a publication of the task has failed, all later publications fail,
and no message arrives any more, however long the task runs and whatever comes on the
connection: the task does not connect again. -/
theorem echo_after_failure (cuts : Nat → Int) (connectIo subscribeIo : CallIo)
    (before after : List EchoTurn) (memory : Session cap EchoHandler) {c : Command EchoHandler}
    (hfailed : (.command c, failure) ∈ (echoTask cuts connectIo subscribeIo before memory).1) :
    let r := echoTask cuts connectIo subscribeIo before memory
    let r' := echoTask cuts connectIo subscribeIo (before ++ after) memory
    (∃ later, r'.1 = r.1 ++ later ∧ ∀ c rc, (Call.command c, rc) ∈ later → rc = failure) ∧
      r'.2.delivered = r.2.delivered ∧ r'.2.client.isconnected = false := by
  have hclean : (echoConnect cuts connectIo memory).Cleans := cleans_mqttConnect rfl rfl
  have hcut := hclean.runCalls cuts _ (stays_echoCalls subscribeIo before) hfailed
  obtain ⟨hlast, hdelivered, hresults⟩ := hcut.runCalls cuts _
    (stays_echoLoop (0 + before.length) after)
  simp only [echoTask, echoCalls, echoLoop_append]
  rw [← List.cons_append, Session.runCalls_append]
  exact ⟨⟨_, rfl, hresults⟩, hdelivered, hlast.closed⟩

/-- The client before it is initialised, with the buffer of the task. -/
def echoMemory : Session 80 EchoHandler :=
  ⟨⟨idleClient, List.replicate maxMessageHandlers none, rfl, rfl⟩, 0, []⟩

/-- A call that finds its timer expired. -/
def expiredIo : CallIo := ⟨wholeIo, []⟩

/-- `MQTTConnect` fails if its timer has expired when the request is sent. -/
theorem closed_mqttConnect_expired (cuts : Nat → Int) (defaultMessageHandler : Option H)
    (options : Option ConnectData) {s : Session cap H} (h : s.client.isconnected = false) :
    (mqttConnect cuts defaultMessageHandler options expiredIo s).2.client.isconnected = false := by
  simp only [mqttConnect, h, Bool.false_eq_true, if_false]
  generalize hsent : ((s.withOptions (options.getD defaultOptions)).send expiredIo.first _ :
    Int × Session cap H) = sent
  have hclosed : sent.2.client.isconnected = false := by
    rw [← hsent, Session.isconnected_send]
    exact h
  have hrc : (if sent.1 ≠ success then sent else
      sent.2.await cuts defaultMessageHandler MsgType.connack expiredIo.rest connackRead).1 ≠
        success := by
    split
    · assumption
    · exact show failure ≠ success by decide
  rw [leaveConnect, if_neg hrc]
  split
  · exact hclosed
  · exact hclosed

theorem subscribe_expired :
    (.command (.subscribe (mqttChars "FreeRTOS/sample/#") 1 (some .messageArrived)), failure) ∈
      (echoTask (fun _ => 0) expiredIo expiredIo [] echoMemory).1 := by
  have hclosed := closed_mqttConnect_expired (fun _ => 0) none (some echoOptions)
    (show (mqttClientInit echoMemory).client.isconnected = false from rfl)
  have hrun := Command.run_of_closed (fun _ => 0) none
    (.subscribe (mqttChars "FreeRTOS/sample/#") 1 (some .messageArrived)) expiredIo hclosed
  simp only [echoTask, echoConnect, echoCalls, Session.runCalls, Call.run, hrun]
  exact List.mem_cons_self

/-- The server does not answer. -/
theorem echo_after_failure_expired :
    let r := echoTask (fun _ => 0) expiredIo expiredIo
      ([] ++ [⟨true, true, expiredIo, expiredIo, 0⟩]) echoMemory
    r.2.delivered = (echoTask (fun _ => 0) expiredIo expiredIo [] echoMemory).2.delivered ∧
      r.2.client.isconnected = false :=
  (echo_after_failure (fun _ => 0) expiredIo expiredIo [] [⟨true, true, expiredIo, expiredIo, 0⟩]
    echoMemory subscribe_expired).2

end Uiso.Mqtt
