/-
  Mqtt/KeepAlive.lean --- `keepalive` of src/mqtt/MQTTClient.c over many rounds.

  `keepalive` sends a ping when one of its timers has expired, and gives up when one has
  expired while a ping is outstanding.  Only a `PINGRESP` makes it forget the ping.
-/
import Uiso.Mqtt.Session

set_option autoImplicit false

namespace Uiso.Mqtt

open Uiso.Foundation

variable {cap : Nat}

/-- Rounds of `cycle`. -/
def pahoCycles (cuts : Nat → Int) : List CycleIo → MqttClient cap → MqttClient cap
  | [], c => c
  | io :: ios, c => pahoCycles cuts ios (pahoCycle cuts io c).2

/-- The packet of a round, if there is one, is no `PINGRESP`, and no `PUBLISH` that the
deserialiser rejects: `cycle` leaves without `keepalive` then. -/
structure Unanswered (cuts : Nat → Int) (c : MqttClient cap) : Prop where
  noPingresp : (readPacket cuts c.toClient).1 ≠ MsgType.pingresp
  readable : (readPacket cuts c.toClient).1 = MsgType.publish →
    (mqttDeserializePublish (readPacket cuts c.toClient).2.readbuf.byte).rc = 1

/-- No `PUBLISH` that fits a small read buffer, such as that of mqtt_client.c, is rejected. -/
theorem unanswered_of_small (hmin : 5 ≤ cap) (hsmall : cap ≤ 130) {cuts : Nat → Int}
    {c : MqttClient cap} (h : (readPacket cuts c.toClient).1 ≠ MsgType.pingresp) :
    Unanswered cuts c := by
  refine ⟨h, fun hpublish => ?_⟩
  have hpos : 0 < (readPacket cuts c.toClient).1 := by
    rw [hpublish]
    decide
  obtain ⟨p, hfit, hheader, hstarts⟩ := readPacket_sound hmin (by omega) hpos
  have hbody : p.body.length < 128 := by
    by_contra hlong
    have hone := p.length_lengthBytes_eq_one_iff.not.mpr hlong
    have hbytes : p.lengthBytes.length ≠ 0 := by
      intro hnone
      have hcanonical := p.canonical
      rw [List.length_eq_zero_iff.mp hnone] at hcanonical
      cases hcanonical
    rw [p.length_bytes] at hfit
    omega
  exact (mqttDeserializePublish_accepts_iff (Holds.of_starts hstarts hfit)
    (hheader.trans hpublish)).mpr (.inr hbody)

/-- No ping is answered in some rounds. -/
def NeverAnswered (cuts : Nat → Int) : List CycleIo → MqttClient cap → Prop
  | [], _ => True
  | io :: ios, c => Unanswered cuts c ∧ NeverAnswered cuts ios (pahoCycle cuts io c).2

/-- A timer of `keepalive` is found expired. -/
def CycleIo.expired (io : CycleIo) : Bool := io.lastSentExpired || io.lastReceivedExpired

/-- `keepalive` when a timer has expired: it fails, or a ping is outstanding behind it, and it
fails if one is outstanding already. -/
theorem keepalive_of_expired {env : CycleEnv} {c : MqttClient cap}
    (hexpired : (env.lastSentExpired || env.lastReceivedExpired) = true)
    (hinterval : c.keepAliveInterval ≠ 0) (hlen : 0 < env.pingreq.len) :
    (keepalive env c).1 = failure ∨
      (c.pingOutstanding = false ∧ (keepalive env c).1 = success ∧
        (keepalive env c).2.pingOutstanding = true) := by
  rw [keepalive, if_neg hinterval, if_pos hexpired]
  split
  · exact .inl rfl
  · rename_i hping
    simp only
    split
    · exact .inr ⟨eq_false_of_ne_true hping, rfl, rfl⟩
    · rename_i hsend
      exact .inl ((sendPacket_rc _ _).resolve_left hsend)

theorem mqttSerializeZero_pos {buflen packettype : Nat} (h : 2 ≤ buflen) :
    0 < (mqttSerializeZero buflen packettype).1 := by
  rw [mqttSerializeZero, if_neg (by omega)]
  simp only [List.length_cons]
  omega

/-- A round without a `PINGRESP`, in an open session: the session is closed, or it stays as it
is, with a ping outstanding if there was one or a timer has expired, but not both. -/
theorem pahoCycle_unanswered {cuts : Nat → Int} {io : CycleIo} {c : MqttClient cap}
    (hunanswered : Unanswered cuts c) (hinterval : c.keepAliveInterval ≠ 0)
    (hroom : 2 ≤ io.bufSize) :
    (pahoCycle cuts io c).2.isconnected = false ∨
      (SessionKept c (pahoCycle cuts io c).2 ∧ ¬(c.pingOutstanding = true ∧ io.expired = true) ∧
        (pahoCycle cuts io c).2.pingOutstanding = (c.pingOutstanding || io.expired)) := by
  obtain ⟨hping, hreadable⟩ := hunanswered
  have hread : SessionKept c { c with toClient := (readPacket cuts c.toClient).2 } :=
    ⟨rfl, rfl, rfl, rfl⟩
  rw [pahoCycle, cycle]
  generalize readPacket cuts c.toClient = read at hping hreadable hread ⊢
  generalize henv : cycleEnv io read.2.readbuf = env
  by_cases hexpected : Expected read.1
  · have hknown := known_handlePacket env hexpected { c with toClient := read.2 }
    generalize handlePacket env read.1 _ = h at hknown ⊢
    have hkept := hread.trans hknown.kept
    have hsame : h.client.pingOutstanding = c.pingOutstanding := hknown.ping hping
    rw [finishCycle_eq]
    rcases hknown.rc with hrc | ⟨hrc, hexit⟩
    · have hexit : h.exit = false := by
        by_contra htrue
        obtain ⟨hpublish, hunread⟩ := hknown.leaves (eq_true_of_ne_false htrue) hrc
        rw [← henv] at hunread
        exact absurd (hreadable hpublish) (of_decide_eq_false hunread)
      simp only [hexit, hrc]
      by_cases hexpired : io.expired = true
      · have hlen : 0 < env.pingreq.len := henv ▸ mqttSerializeZero_pos hroom
        rcases keepalive_of_expired (henv ▸ hexpired) (hkept.keepAliveInterval ▸ hinterval)
          hlen with hfailed | ⟨hno, hsent, houtstanding⟩
        · left
          simp only [hfailed]
          exact isconnected_exitSession _
        · right
          simp only [hsent]
          refine ⟨hkept.trans (sessionKept_keepalive env h.client), ?_, ?_⟩
          · rw [← hsame, hno]
            exact fun hboth => absurd hboth.1 (by decide)
          · rw [hexpired, Bool.or_true]
            exact houtstanding
      · right
        have hidle := Bool.or_eq_false_iff.mp (eq_false_of_ne_true hexpired)
        have hquiet := @keepalive_of_not_expired cap env (henv ▸ hidle.1) (henv ▸ hidle.2) h.client
        simp only [hquiet]
        refine ⟨hkept, fun hboth => hexpired hboth.2, ?_⟩
        rw [eq_false_of_ne_true hexpired, Bool.or_false]
        exact hsame
    · left
      simp only [hexit, hrc, if_true]
      exact isconnected_exitSession _
  · left
    rw [handlePacket_of_not_expected env hexpected, finishCycle_eq]
    have hrc : read.1 ≠ success := fun hzero => hexpected (hzero ▸ by decide)
    simp only [hrc, if_true, if_false]
    exact isconnected_exitSession _

/-- Without a session, no round opens one. -/
theorem pahoCycles_closed {cuts : Nat → Int} (ios : List CycleIo) {c : MqttClient cap}
    (h : c.isconnected = false) : (pahoCycles cuts ios c).isconnected = false := by
  induction ios generalizing c with
  | nil => exact h
  | cons io ios ih =>
      refine ih ?_
      have hcases := cycle_cases cuts (cycleEnv io (readPacket cuts c.toClient).2.readbuf) c
      rw [pahoCycle]
      generalize Mqtt.cycle cuts _ c = r at hcases ⊢
      cases hcases with
      | known expected kept => exact kept.isconnected.trans h
      | failed expected kept => exact isconnected_exitSession _
      | unknown unexpected kept => exact isconnected_exitSession _

/-- Until a ping is answered, timers may expire in at most one round: in the second one at the
latest, or in the first if a ping is outstanding, the session is closed. -/
theorem pahoCycles_unanswered (cuts : Nat → Int) (ios : List CycleIo) (c : MqttClient cap)
    (hunanswered : NeverAnswered cuts ios c) (hinterval : c.keepAliveInterval ≠ 0)
    (hroom : ∀ io ∈ ios, 2 ≤ io.bufSize)
    (hexpired : 2 ≤ c.pingOutstanding.toNat + ios.countP CycleIo.expired) :
    (pahoCycles cuts ios c).isconnected = false := by
  induction ios generalizing c with
  | nil =>
      have := c.pingOutstanding.toNat_le
      rw [List.countP_nil] at hexpired
      omega
  | cons io ios ih =>
      obtain ⟨hfirst, hlater⟩ := hunanswered
      rw [List.forall_mem_cons] at hroom
      rcases pahoCycle_unanswered hfirst hinterval hroom.1 with hclosed | ⟨hkept, hnot, hping⟩
      · exact pahoCycles_closed ios hclosed
      · refine ih _ hlater (hkept.keepAliveInterval ▸ hinterval) hroom.2 ?_
        have hsum : (c.pingOutstanding || io.expired).toNat =
            c.pingOutstanding.toNat + if io.expired = true then 1 else 0 := by
          revert hnot
          cases c.pingOutstanding <;> cases io.expired <;> decide
        rw [List.countP_cons] at hexpired
        rw [hping, hsum]
        omega

/-- A round in which the timer of the packets that were received has expired. -/
def expiredRound : CycleIo := { wholeIo with lastReceivedExpired := true }

theorem unanswered_of_dead {c : MqttClient 80} : Unanswered (fun _ => 0) c := by
  have hread : (uisoMqttRead (fun _ => 0) 1 c.stream).1 = [] :=
    (@read_one_of_failure (fun _ => 0) c.stream (by decide)).1
  have hzero : (readPacket (fun _ => 0) c.toClient).1 = 0 := readPacket_of_nil hread
  refine unanswered_of_small (by decide) (by decide) ?_
  rw [hzero]
  decide

/-- Two rounds on a connection that was closed by the server. -/
theorem pahoCycles_unanswered_dead :
    (pahoCycles (fun _ => 0) [expiredRound, expiredRound] idleClient).isconnected = false :=
  pahoCycles_unanswered (fun _ => 0) [expiredRound, expiredRound] idleClient
    ⟨unanswered_of_dead, unanswered_of_dead, trivial⟩ (by decide) (by decide) (by decide)

end Uiso.Mqtt
