/-
  Sntp/Atomicity.lean --- what a failed request leaves behind.

  Two questions about the state after a request: what a request that does not succeed
  has changed, and what a truncated reply can change.

  The RTC is set before the date is read back and written to the SimpleLink device, and
  nothing undoes it, so a request that fails in one of these two steps leaves the RTC on
  the time of the reply.  `sl_sleeptimer_set_time` itself stores the time before it fails
  for one the counter has passed.  The first question sets that aside; the second runs the
  request on the wall clock.

  `sl_RecvFrom` writes only the bytes it received, and its result is compared with zero
  and not with the size of the packet.  A truncated reply is therefore completed by the
  bytes of the request it answers (`replyPacket`) and treated like a whole one.
-/
import Uiso.Sntp.Clocks

set_option autoImplicit false

namespace Uiso.Sntp

open Uiso.Foundation
open Uiso.Gecko
open Uiso.Network (rev)

/-! ## Requests that fail -/

/-- Where setting the RTC changes nothing when it fails, a request that does not succeed
leaves the server's last time stamp.  It leaves the RTC too, unless a reply passed every
check, the RTC was set to its time and a later step failed, which the return code then
says. -/
theorem failed_request_keeps (server : Option Server) (interval : Option UInt32) (a : Answers)
    (w : World) (hset : ∀ rtc, a.setTime = .failed rtc → rtc = w.rtc)
    (hfailed : (uisoSntpRequest server interval a w).rcode ≠ .success) :
    (uisoSntpRequest server interval a w).server.map (·.lastTimeStamp) =
      server.map (·.lastTimeStamp) ∧
    ((uisoSntpRequest server interval a w).world.rtc = w.rtc ∨
      ((uisoSntpRequest server interval a w).rcode = .setRtcError ∨
        (uisoSntpRequest server interval a w).rcode = .setSimplelinkError) ∧
      a.setTime = .ok ∧ (a.getDatetime = none ∨ a.devSet < 0) ∧
      ∃ d, Validated a w.rtc d ∧
        replyTimeStamp (getLocalNtpTime w.rtc) 0 (replyPacket w.rtc d) =
          .ok (uisoSntpRequest server interval a w).world.rtc) := by
  cases server with
  | none => exact ⟨rfl, .inl rfl⟩
  | some server =>
      cases interval with
      | none => exact ⟨rfl, .inl rfl⟩
      | some interval =>
          cases uisoSntpRequest_ends server interval a w with
          | refused _ _ _ hentry _ hclock => exact ⟨by rw [hentry], .inl hclock⟩
          | rejected _ _ _ _ _ _ hentry hclock => exact ⟨by rw [hentry]; rfl, .inl hclock⟩
          | notSet _ _ _ _ rtc hnotSet _ hentry hclock =>
              exact ⟨by rw [hentry]; rfl, .inl (hclock.trans (hset rtc hnotSet))⟩
          | halfSet d hd time hreply hisSet hlater hcode hentry hclock =>
              exact ⟨by rw [hentry]; rfl,
                .inr ⟨hcode, hisSet, hlater, d, hd, hclock.symm ▸ hreply⟩⟩
          | synchronised _ _ _ _ _ _ _ hcode => exact absurd hcode hfailed

/-- A request that fails when the device's date is set. -/
def devSetFails : Answers :=
  { answersWith 0x0A000001 (serverReply (rev 0x0A000001) 0x24 2 3908988800 3908988810) with
    devSet := -1 }

theorem failed_request_keeps_sample :
    (uisoSntpRequest (some (.initial none)) (some 0) devSetFails
      (.initial 1700000000)).server.map (·.lastTimeStamp) = some 0 :=
  (failed_request_keeps (some (.initial none)) (some 0) devSetFails (.initial 1700000000)
    (by intro rtc h; cases h) (by decide +kernel)).1

/-- A failed request has moved the RTC. -/
theorem failed_request_moves_rtc :
    ¬∀ (server : Option Server) (interval : Option UInt32) (a : Answers) (w : World),
      (∀ rtc, a.setTime = .failed rtc → rtc = w.rtc) →
      (uisoSntpRequest server interval a w).rcode ≠ .success →
      (uisoSntpRequest server interval a w).world.rtc = w.rtc ∧
      (uisoSntpRequest server interval a w).server.map (·.lastTimeStamp) =
        server.map (·.lastTimeStamp) := by
  intro h
  have hkept := (h (some (.initial none)) (some 0) devSetFails (.initial 1700000000)
    (by intro rtc hrtc; cases hrtc) (by decide +kernel)).1
  revert hkept
  decide +kernel

/-! ## Truncated replies -/

/-- The packet answers the request sent at `rtc` with a time of the RTC. -/
structure Timely (rtc : UInt32) (packet : Packet) : Prop where
  seconds : packet.originateTimestampSeconds = getLocalNtpTime rtc
  fraction : packet.originateTimestampFraction = 0
  range : packet.receiveTimestampSeconds - timeNtpEpochOffsetSec ≤ timeUnixTimestampMax

theorem timely_of_ok {rtc time : UInt32} {packet : Packet}
    (h : replyTimeStamp (getLocalNtpTime rtc) 0 packet = .ok time) :
    Timely rtc packet ∧ time = packet.receiveTimestampSeconds - timeNtpEpochOffsetSec := by
  obtain ⟨hseconds, hfraction, hrange, htime⟩ := replyTimeStamp_eq_ok.mp h
  exact ⟨⟨hseconds, hfraction, hrange⟩, htime⟩

theorem Timely.ok {rtc : UInt32} {packet : Packet} (h : Timely rtc packet) :
    replyTimeStamp (getLocalNtpTime rtc) 0 packet =
      .ok (packet.receiveTimestampSeconds - timeNtpEpochOffsetSec) :=
  replyTimeStamp_eq_ok.mpr ⟨h.seconds, h.fraction, h.range, rfl⟩

/-- The request fails and leaves the RTC, the device's date and the server's entry. -/
structure Harmless (server : Server) (w : World) (c : WallClock) (r : Outcome × WallClock) :
    Prop where
  failed : r.1.rcode ≠ .success
  clock : r.2.getTime = c.getTime
  date : r.1.world.slDate = w.slDate
  entry : r.1.server = some server

theorem marked_iff (server : Server) :
    some { server with nextTimeStamp := 0xFFFFFFFF } = some server ↔
      server.nextTimeStamp = 0xFFFFFFFF := by
  cases server
  simp [eq_comm]

/-- A failed request that marks the entry is harmless if the mark was there and the RTC has not
moved. -/
theorem harmless_iff_of_marked {server : Server} {w : World} {c : WallClock}
    {r : Outcome × WallClock} (hfailed : r.1.rcode ≠ .success)
    (hdate : r.1.world.slDate = w.slDate)
    (hentry : r.1.server = some { server with nextTimeStamp := 0xFFFFFFFF }) :
    Harmless server w c r ↔ server.nextTimeStamp = 0xFFFFFFFF ∧ r.2.getTime = c.getTime := by
  constructor
  · intro h
    exact ⟨(marked_iff server).mp (hentry.symm.trans h.entry), h.clock⟩
  · rintro ⟨hmarked, hclock⟩
    exact ⟨hfailed, hclock, hdate, hentry.trans ((marked_iff server).mpr hmarked)⟩

/-- Setting `time` does not move the wall clock, and the request then fails.  The clock is
set to the time it shows and a later step fails; or the counter has passed `time`, which
the clock then shows on top of the counter's seconds. -/
def Unmoved (c : WallClock) (devSet : Int) (time : UInt32) : Prop :=
  if c.counter / c.frequency ≤ time then
    time = c.getTime ∧ (convertTimeToDate time c.tzOffset = none ∨ devSet < 0)
  else time + c.counter / c.frequency = c.getTime

/-- The condition on a reply that passes the checks and answers the request. -/
theorem answered_iff {server : Server} {a : Answers} {rtc : UInt32} {d : Datagram} {unmoved : Prop}
    (hvalid : Validated a rtc d) (htimely : Timely rtc (replyPacket rtc d)) :
    (¬Validated a rtc d ∨ server.nextTimeStamp = 0xFFFFFFFF ∧
      (Timely rtc (replyPacket rtc d) → unmoved)) ↔
      server.nextTimeStamp = 0xFFFFFFFF ∧ unmoved := by
  constructor
  · rintro (hinvalid | ⟨hmarked, hunmoved⟩)
    · exact absurd hvalid hinvalid
    · exact ⟨hmarked, hunmoved htimely⟩
  · rintro ⟨hmarked, hunmoved⟩
    exact .inr ⟨hmarked, fun _ => hunmoved⟩

/-- A truncated reply is harmless precisely if, completed by the request's own bytes, it
fails one of the checks that come before the last block, or if the entry has already been
marked and the RTC is not moved: the packet does not answer the request, or the clock is
as it was when its time has been set. -/
theorem short_reply_keeps_iff (server : Server) (interval : UInt32) (a : Answers) (w : World)
    (c : WallClock) (d : Datagram) (hrecv : a.recvFrom = some d) (hshort : d.bytes.length < 48) :
    Harmless server w c (requestOnClock server interval a w c) ↔
      ¬Validated a c.getTime d ∨
      server.nextTimeStamp = 0xFFFFFFFF ∧
        (Timely c.getTime (replyPacket c.getTime d) →
          Unmoved c a.devSet
            ((replyPacket c.getTime d).receiveTimestampSeconds - timeNtpEpochOffsetSec)) := by
  have honly : ∀ {e}, Validated (a.onClock c { w with rtc := c.getTime }) c.getTime e → e = d := by
    intro e he
    exact Option.some.inj (he.delivers.recvFrom.symm.trans hrecv)
  have hrtc := requestOnClock_rtc server interval a w c
  cases uisoSntpRequest_ends server interval (a.onClock c { w with rtc := c.getTime })
    { w with rtc := c.getTime } with
  | refused hnone _ hfailed hentry _ hclock hdate =>
      exact iff_of_true ⟨hfailed, hrtc.trans hclock, hdate, hentry⟩
        (.inl fun h => hnone d (validated_onClock.mpr h))
  | rejected e he rcode hreply _ hfailed hentry hclock hdate =>
      obtain rfl := honly he
      rw [harmless_iff_of_marked hfailed hdate hentry]
      constructor
      · rintro ⟨hmarked, _⟩
        refine .inr ⟨hmarked, fun htimely => ?_⟩
        rw [htimely.ok] at hreply
        cases hreply
      · rintro (h | ⟨hmarked, _⟩)
        · exact absurd (validated_onClock.mp he) h
        · exact ⟨hmarked, hrtc.trans hclock⟩
  | notSet e he time hreply rtc hset hcode hentry hclock hdate =>
      obtain rfl := honly he
      have hvalid := validated_onClock.mp he
      rw [(onClock_of_reply c hvalid hreply).1] at hset
      obtain ⟨hfails, rfl⟩ := SetTime.onClock_failed hset
      obtain ⟨htimely, rfl⟩ := timely_of_ok hreply
      obtain ⟨hpassed, hshows⟩ := WallClock.setTime_passed htimely.range hfails
      rw [harmless_iff_of_marked (w := w) (by simp [requestOnClock, hcode]) hdate hentry,
        hrtc.trans (hclock.trans hshows), answered_iff hvalid htimely, Unmoved, if_neg hpassed]
  | halfSet e he time hreply hset hlater hcode hentry hclock hdate =>
      obtain rfl := honly he
      have hvalid := validated_onClock.mp he
      obtain ⟨honSet, honDate⟩ := onClock_of_reply c hvalid hreply
      rw [honSet, SetTime.onClock_ok] at hset
      rw [honDate, WallClock.setTime_getDatetime hset, Option.map_eq_none_iff] at hlater
      obtain ⟨htimely, rfl⟩ := timely_of_ok hreply
      have hfailed : (requestOnClock server interval a w c).1.rcode ≠ .success := by
        rcases hcode with hcode | hcode <;> simp [requestOnClock, hcode]
      rw [harmless_iff_of_marked (w := w) hfailed hdate hentry, hrtc.trans hclock,
        answered_iff hvalid htimely, Unmoved, if_pos (WallClock.counter_le_of_setTime hset)]
      exact and_congr_right fun _ => (and_iff_left hlater).symm
  | synchronised e he time hreply hset hdatetime hdev hcode =>
      obtain rfl := honly he
      have hvalid := validated_onClock.mp he
      obtain ⟨honSet, honDate⟩ := onClock_of_reply c hvalid hreply
      rw [honSet, SetTime.onClock_ok] at hset
      rw [honDate, WallClock.setTime_getDatetime hset, ne_eq, Option.map_eq_none_iff] at hdatetime
      obtain ⟨htimely, rfl⟩ := timely_of_ok hreply
      rw [answered_iff hvalid htimely, Unmoved, if_pos (WallClock.counter_le_of_setTime hset)]
      refine iff_of_false (fun h => h.failed hcode) ?_
      rintro ⟨_, _, hnone | hneg⟩
      · exact hdatetime hnone
      · exact absurd hdev (Int.not_le.mpr hneg)

/-- The first 36 bytes of a reply, up to the receive time. -/
def truncatedReply : Datagram where
  bytes := (serverReply (rev 0x0A000001) 0x24 2 3908988800 3908988810).bytes.take 36
  source := (serverReply (rev 0x0A000001) 0x24 2 3908988800 3908988810).source
  fits := by decide +kernel

/-- A truncated reply from another address. -/
theorem short_reply_keeps_sample :
    Harmless (.initial none) (.initial 0) (Board.clockAt 1700000000)
      (requestOnClock (.initial none) 0 (answersWith 0x0A000002 truncatedReply) (.initial 0)
        (Board.clockAt 1700000000)) := by
  refine (short_reply_keeps_iff _ _ _ _ _ truncatedReply rfl (by decide +kernel)).mpr (.inl ?_)
  intro h
  have hsource := h.source
  revert hsource
  decide

/-- A truncated reply sets the clock. -/
theorem short_reply_sets_clock :
    ¬∀ (server : Server) (interval : UInt32) (a : Answers) (w : World) (c : WallClock)
      (d : Datagram), a.recvFrom = some d → d.bytes.length < 48 →
      Harmless server w c (requestOnClock server interval a w c) := by
  intro h
  have hclock := (h (.initial none) 0 (answersWith 0x0A000001 truncatedReply) (.initial 0)
    (Board.clockAt 1700000000) truncatedReply rfl (by decide +kernel)).clock
  revert hclock
  decide +kernel

end Uiso.Sntp
