/-
  Sntp/Acceptance.lean --- which replies set the clock.

  `setTime_mem_calls` reduces the whole request to two conditions: the packet passes
  the checks of `Validated` and `replyTimeStamp` yields a time.  For a complete reply
  the packet is the reply itself, so both become conditions on the 48 bytes received.

  The header check compares the whole first byte with two constants, whose leap
  indicator is zero.  A reply that announces a leap second is therefore refused, and
  among the legal replies only those without an announcement succeed.
-/
import Uiso.Sntp.Request

set_option autoImplicit false

namespace Uiso.Sntp

open Uiso.Foundation
open Uiso.Gecko
open Uiso.Network (rev)

/-! ## When the clock is set -/

theorem replyTimeStamp_eq_ok {origin fraction time : UInt32} {packet : Packet} :
    replyTimeStamp origin fraction packet = .ok time ↔
      packet.originateTimestampSeconds = origin ∧
      packet.originateTimestampFraction = fraction ∧
      packet.receiveTimestampSeconds - timeNtpEpochOffsetSec ≤ timeUnixTimestampMax ∧
      time = packet.receiveTimestampSeconds - timeNtpEpochOffsetSec := by
  unfold replyTimeStamp
  rw [convertNtpTimeToUnix_eq]
  by_cases hseconds : packet.originateTimestampSeconds = origin
  · by_cases hfraction : packet.originateTimestampFraction = fraction
    · by_cases hrange :
        packet.receiveTimestampSeconds - timeNtpEpochOffsetSec ≤ timeUnixTimestampMax
      · simp [hseconds, hfraction, hrange, eq_comm]
      · simp [hseconds, hfraction, hrange]
    · simp [hseconds, hfraction]
  · simp [hseconds]

theorem setTime_not_mem_exchange (a : Answers) (w : World) (time : UInt32) :
    .setTime time ∉ (exchange a w).calls := by
  rw [exchange_calls]
  split <;> simp

theorem Answers.Delivers.unique {a : Answers} {d e : Datagram} (hd : a.Delivers d)
    (he : a.Delivers e) : d = e :=
  Option.some.inj (hd.recvFrom.symm.trans he.recvFrom)

/-- The RTC is set precisely by the time stamp of a reply that passes every check. -/
theorem setTime_mem_calls {server : Server} {interval : UInt32} {a : Answers} {w : World}
    {time : UInt32} :
    .setTime time ∈ (uisoSntpRequest (some server) (some interval) a w).calls ↔
      ∃ d, Validated a w.rtc d ∧
        replyTimeStamp (getLocalNtpTime w.rtc) 0 (replyPacket w.rtc d) = .ok time := by
  have hexchange := setTime_not_mem_exchange a w
  -- the reply that was received decides, and there is only one
  have honly : ∀ {d : Datagram} {r : Except ReturnCode UInt32}, Validated a w.rtc d →
      replyTimeStamp (getLocalNtpTime w.rtc) 0 (replyPacket w.rtc d) = r →
      ((∃ e, Validated a w.rtc e ∧
        replyTimeStamp (getLocalNtpTime w.rtc) 0 (replyPacket w.rtc e) = .ok time) ↔
        r = .ok time) := by
    intro d r hd hr
    constructor
    · rintro ⟨e, he, hok⟩
      rw [he.delivers.unique hd.delivers] at hok
      exact hr.symm.trans hok
    · intro hok
      exact ⟨d, hd, hr.trans hok⟩
  cases uisoSntpRequest_ends server interval a w with
  | refused hnone _ _ _ _ _ _ hcalls =>
      rw [hcalls]
      constructor
      · intro hmem
        exact absurd hmem (hexchange time)
      · rintro ⟨d, hd, _⟩
        exact absurd hd (hnone d)
  | rejected d hd rcode hreply _ _ _ _ _ hcalls =>
      rw [hcalls, honly hd hreply]
      simp [hexchange]
  | notSet d hd t hreply _ _ _ _ _ _ hcalls =>
      rw [hcalls, honly hd hreply]
      simp [hexchange, eq_comm]
  | halfSet d hd t hreply _ _ _ _ _ _ hcalls =>
      obtain ⟨rest, hcalls, hrest⟩ := hcalls
      rw [hcalls, honly hd hreply]
      simp [hexchange, hrest, eq_comm]
  | synchronised d hd t hreply _ _ _ _ _ hcalls =>
      obtain ⟨date, hcalls⟩ := hcalls
      rw [hcalls, honly hd hreply]
      simp [hexchange, eq_comm]

/-! ## Complete replies -/

/-- The packet of a complete reply. -/
def Datagram.packet (d : Datagram) : Packet := (Buffer.zero 48).write d.bytes

theorem replyPacket_of_complete {d : Datagram} (h : d.bytes.length = 48) (rtc : UInt32) :
    replyPacket rtc d = d.packet :=
  Buffer.write_of_length_eq h _ _

/-- A complete reply `d` answers the request sent at `rtc` to the server at `resolved`
with a time of the RTC. -/
structure Accepts (rtc resolved : UInt32) (d : Datagram) : Prop where
  source : d.source.addr = resolved
  header : d.packet.leapVersionMode = sntpServerResponseV4 ∨
    d.packet.leapVersionMode = sntpServerResponseV3
  stratum : d.packet.stratum ≠ 0
  transmit : d.packet.transmitTimestamp ≠ 0
  seconds : d.packet.originateTimestampSeconds =
    (requestPacket (getLocalNtpTime rtc) 0).transmitTimestampSeconds
  fraction : d.packet.originateTimestampFraction =
    (requestPacket (getLocalNtpTime rtc) 0).transmitTimestampFraction
  range : d.packet.receiveTimestampSeconds - 2208988800 ≤ 0x7FFFFFFF

theorem accepts_iff {a : Answers} {d : Datagram} (hd : a.Delivers d)
    (hcomplete : d.bytes.length = 48) (rtc time : UInt32) :
    (Accepts rtc (rev a.dnsAddr) d ∧ time = d.packet.receiveTimestampSeconds - 2208988800) ↔
      Validated a rtc d ∧
        replyTimeStamp (getLocalNtpTime rtc) 0 (replyPacket rtc d) = .ok time := by
  have hpacket := replyPacket_of_complete hcomplete rtc
  have hoffset := timeNtpEpochOffsetSec_eq
  rw [replyTimeStamp_eq_ok, hoffset, hpacket]
  constructor
  · rintro ⟨⟨hsource, hheader, hstratum, htransmit, hseconds, hfraction, hrange⟩, htime⟩
    rw [requestPacket_transmitTimestampSeconds] at hseconds
    rw [requestPacket_transmitTimestampFraction] at hfraction
    rw [← hpacket] at hheader hstratum htransmit
    exact ⟨⟨hd, hsource, hheader, hstratum, htransmit⟩, hseconds, hfraction, hrange, htime⟩
  · rintro ⟨⟨_, hsource, hheader, hstratum, htransmit⟩, hseconds, hfraction, hrange, htime⟩
    rw [hpacket] at hheader hstratum htransmit
    refine ⟨⟨hsource, hheader, hstratum, htransmit, ?_, ?_, hrange⟩, htime⟩
    · rw [requestPacket_transmitTimestampSeconds, hseconds]
    · rw [requestPacket_transmitTimestampFraction, hfraction]

theorem success_calls_setTime {server : Server} {interval : UInt32} {a : Answers} {w : World}
    (h : (uisoSntpRequest (some server) (some interval) a w).rcode = .success) :
    a.setTime = .ok ∧
      .setTime (uisoSntpRequest (some server) (some interval) a w).world.rtc ∈
        (uisoSntpRequest (some server) (some interval) a w).calls := by
  cases uisoSntpRequest_ends server interval a w with
  | refused _ _ hfailed => exact absurd h hfailed
  | rejected _ _ _ _ _ hfailed => exact absurd h hfailed
  | notSet _ _ _ _ _ _ hcode => simp [hcode] at h
  | halfSet _ _ _ _ _ _ hcode => rcases hcode with hcode | hcode <;> simp [hcode] at h
  | synchronised _ _ time _ hset _ _ _ hclock hcalls =>
      obtain ⟨date, hcalls⟩ := hcalls
      refine ⟨hset, ?_⟩
      rw [hclock, hcalls]
      simp

/-- The clock is set by a complete reply precisely if the reply is from the server that
was asked, is a version 3 or 4 server reply, is no kiss-of-death, has a transmit time,
echoes the request's time stamp and carries a time of the RTC.  The time set is the
receive time, and no request succeeds without having set it. -/
theorem setTime_iff_accepts (server : Server) (interval : UInt32) (a : Answers) (w : World)
    (d : Datagram) (hd : a.Delivers d) (hcomplete : d.bytes.length = 48) :
    (∀ time,
      .setTime time ∈ (uisoSntpRequest (some server) (some interval) a w).calls ↔
        Accepts w.rtc (rev a.dnsAddr) d ∧
          time = d.packet.receiveTimestampSeconds - 2208988800) ∧
    ((uisoSntpRequest (some server) (some interval) a w).rcode = .success →
      a.setTime = .ok ∧
      .setTime (d.packet.receiveTimestampSeconds - 2208988800) ∈
        (uisoSntpRequest (some server) (some interval) a w).calls ∧
      (uisoSntpRequest (some server) (some interval) a w).world.rtc =
        d.packet.receiveTimestampSeconds - 2208988800) := by
  have hset : ∀ time,
      .setTime time ∈ (uisoSntpRequest (some server) (some interval) a w).calls ↔
        Accepts w.rtc (rev a.dnsAddr) d ∧
          time = d.packet.receiveTimestampSeconds - 2208988800 := by
    intro time
    rw [setTime_mem_calls, accepts_iff hd hcomplete]
    constructor
    · rintro ⟨e, he, hok⟩
      obtain rfl := he.delivers.unique hd
      exact ⟨he, hok⟩
    · intro h
      exact ⟨d, h⟩
  refine ⟨hset, fun hsuccess => ?_⟩
  obtain ⟨hrtc, hmem⟩ := success_calls_setTime hsuccess
  have htime := ((hset _).mp hmem).2
  exact ⟨hrtc, htime ▸ hmem, htime⟩

/-! ## A server's replies -/

/-- A word in network order. -/
def networkBytes (x : UInt32) : List UInt8 :=
  [byteOfWord x 3, byteOfWord x 2, byteOfWord x 1, byteOfWord x 0]

/-- The reply a server at `source` sends: header, stratum, a poll interval of 64 s, the
originate time stamp and the same receive and transmit time. -/
def serverReply (source : UInt32) (header stratum : UInt8) (originate time : UInt32) :
    Datagram where
  bytes := [header, stratum, 6, 0] ++ List.replicate 20 0 ++ networkBytes originate ++
    networkBytes 0 ++ networkBytes time ++ networkBytes 0 ++ networkBytes time ++ networkBytes 0
  source := ⟨Network.slAfInet, Network.rev16 123, source⟩
  fits := by simp [networkBytes]

/-- A request in which every call succeeds and `d` arrives. -/
def answersWith (dnsAddr : UInt32) (d : Datagram) : Answers where
  dnsStatus := 0
  dnsAddr := dnsAddr
  socket := 0
  bind := 0
  sendTo := 48
  recvFrom := some d
  close := 0
  setTime := .ok
  getDatetime := some ⟨0, 0, 0, 1, 0, 70⟩
  devSet := 0

theorem answersWith_delivers (dnsAddr : UInt32) (d : Datagram) :
    (answersWith dnsAddr d).Delivers d := by
  constructor <;> simp [answersWith]

/-- The world after a reset, with the RTC at `rtc`. -/
def World.initial (rtc : UInt32) : World := ⟨rtc, none, Buffer.zero 48, false⟩

/-- An entry of `sntp_server_list` at start-up. -/
def Server.initial (name : Option String) : Server := ⟨name, 0, 0⟩

theorem setTime_iff_accepts_sample :
    Accepts 1700000000 (rev 0x0A000001)
      (serverReply (rev 0x0A000001) 0x24 2 3908988800 3908988810) ∧
    .setTime 1700000010 ∈
      (uisoSntpRequest (some (.initial none)) (some 0)
        (answersWith 0x0A000001 (serverReply (rev 0x0A000001) 0x24 2 3908988800 3908988810))
        (.initial 1700000000)).calls := by
  have haccepts : Accepts 1700000000 (rev 0x0A000001)
      (serverReply (rev 0x0A000001) 0x24 2 3908988800 3908988810) := by
    constructor <;> decide +kernel
  have htheorem := setTime_iff_accepts (.initial none) 0
    (answersWith 0x0A000001 (serverReply (rev 0x0A000001) 0x24 2 3908988800 3908988810))
    (.initial 1700000000) _ (answersWith_delivers _ _) (by decide +kernel)
  refine ⟨haccepts, (htheorem.1 1700000010).mpr ⟨haccepts, ?_⟩⟩
  decide +kernel

/-! ## Legal replies -/

/-- `leap_version_mode`, bits 6 and 7 -/
def Packet.leapIndicator (p : Packet) : Nat := p.leapVersionMode.toNat / 64
/-- `leap_version_mode`, bits 3 to 5 -/
def Packet.versionNumber (p : Packet) : Nat := p.leapVersionMode.toNat / 8 % 8
/-- `leap_version_mode`, bits 0 to 2 -/
def Packet.mode (p : Packet) : Nat := p.leapVersionMode.toNat % 8

/-- The header check lets a version 3 or 4 server reply through precisely if its leap
indicator is zero. -/
theorem header_iff_leapIndicator {p : Packet} (hversion : p.versionNumber = 3 ∨
    p.versionNumber = 4) (hmode : p.mode = 4) :
    (p.leapVersionMode = sntpServerResponseV4 ∨ p.leapVersionMode = sntpServerResponseV3) ↔
      p.leapIndicator = 0 := by
  have h4 : sntpServerResponseV4.toNat = 36 := by decide
  have h3 : sntpServerResponseV3.toNat = 28 := by decide
  have hbyte := p.leapVersionMode.toNat_lt
  simp only [Packet.versionNumber, Packet.mode, Packet.leapIndicator, ← UInt8.toNat_inj, h4,
    h3] at *
  omega

/-- A unicast server reply that the SNTP specification lets a client use: complete, from
the resolved address, version 3 or 4, from a server whose clock is synchronised, and
answering the request sent at `rtc`. -/
structure LegalReply (rtc resolved : UInt32) (d : Datagram) : Prop where
  complete : d.bytes.length = 48
  source : d.source.addr = resolved
  version : d.packet.versionNumber = 3 ∨ d.packet.versionNumber = 4
  mode : d.packet.mode = 4
  leap : d.packet.leapIndicator = 0 ∨ d.packet.leapIndicator = 1 ∨ d.packet.leapIndicator = 2
  stratum : 1 ≤ d.packet.stratum.toNat ∧ d.packet.stratum.toNat ≤ 15
  transmit : d.packet.transmitTimestamp ≠ 0
  seconds : d.packet.originateTimestampSeconds =
    (requestPacket (getLocalNtpTime rtc) 0).transmitTimestampSeconds
  fraction : d.packet.originateTimestampFraction =
    (requestPacket (getLocalNtpTime rtc) 0).transmitTimestampFraction
  range : d.packet.receiveTimestampSeconds - 2208988800 ≤ 0x7FFFFFFF

theorem LegalReply.accepts_iff_leap {rtc resolved : UInt32} {d : Datagram}
    (h : LegalReply rtc resolved d) : Accepts rtc resolved d ↔ d.packet.leapIndicator = 0 := by
  have hheader := header_iff_leapIndicator h.version h.mode
  constructor
  · intro haccepts
    exact hheader.mp haccepts.header
  · intro hleap
    refine ⟨h.source, hheader.mpr hleap, ?_, h.transmit, h.seconds, h.fraction, h.range⟩
    intro hzero
    have hstratum := h.stratum.1
    rw [hzero] at hstratum
    exact absurd hstratum (by decide)

/-- A request succeeds precisely if a reply passes every check and both clocks can be
set. -/
theorem rcode_eq_success {server : Server} {interval : UInt32} {a : Answers} {w : World} :
    (uisoSntpRequest (some server) (some interval) a w).rcode = .success ↔
      (∃ d time, Validated a w.rtc d ∧
        replyTimeStamp (getLocalNtpTime w.rtc) 0 (replyPacket w.rtc d) = .ok time) ∧
      a.setTime = .ok ∧ a.getDatetime ≠ none ∧ 0 ≤ a.devSet := by
  cases uisoSntpRequest_ends server interval a w with
  | refused hnone _ hfailed =>
      refine iff_of_false hfailed ?_
      rintro ⟨⟨d, _, hd, _⟩, _⟩
      exact hnone d hd
  | rejected d hd rcode hreply _ hfailed =>
      refine iff_of_false hfailed ?_
      rintro ⟨⟨e, time, he, hok⟩, _⟩
      rw [he.delivers.unique hd.delivers, hreply] at hok
      cases hok
  | notSet d hd time hreply rtc hset hcode =>
      refine iff_of_false (by simp [hcode]) ?_
      rintro ⟨_, hset', _⟩
      simp [hset] at hset'
  | halfSet d hd time hreply hset hlater hcode =>
      refine iff_of_false (by rcases hcode with hcode | hcode <;> simp [hcode]) ?_
      rintro ⟨_, _, hdate, hdev⟩
      rcases hlater with hnone | hneg
      · exact hdate hnone
      · omega
  | synchronised d hd time hreply hset hdate hdev hcode =>
      exact iff_of_true hcode ⟨⟨d, time, hd, hreply⟩, hset, hdate, hdev⟩

/-- With every local call succeeding, a legal reply is accepted precisely if it
announces no leap second. -/
theorem success_iff_no_leap (server : Server) (interval : UInt32) (a : Answers) (w : World)
    (d : Datagram) (hd : a.Delivers d) (hset : a.setTime = .ok) (hdate : a.getDatetime ≠ none)
    (hdev : 0 ≤ a.devSet) (hlegal : LegalReply w.rtc (rev a.dnsAddr) d) :
    (uisoSntpRequest (some server) (some interval) a w).rcode = .success ↔
      d.packet.leapIndicator = 0 := by
  rw [rcode_eq_success, ← hlegal.accepts_iff_leap]
  constructor
  · rintro ⟨⟨e, time, he, hok⟩, _⟩
    obtain rfl := he.delivers.unique hd
    exact ((accepts_iff hd hlegal.complete _ _).mpr ⟨he, hok⟩).1
  · intro haccepts
    have hvalid := (accepts_iff hd hlegal.complete _ _).mp ⟨haccepts, rfl⟩
    exact ⟨⟨d, _, hvalid⟩, hset, hdate, hdev⟩

theorem success_iff_no_leap_sample :
    (uisoSntpRequest (some (.initial none)) (some 0)
      (answersWith 0x0A000001 (serverReply (rev 0x0A000001) 0x24 2 3908988800 3908988810))
      (.initial 1700000000)).rcode = .success := by
  have hlegal : LegalReply 1700000000 (rev 0x0A000001)
      (serverReply (rev 0x0A000001) 0x24 2 3908988800 3908988810) := by
    constructor <;> decide +kernel
  refine (success_iff_no_leap _ _ _ _ _ (answersWith_delivers _ _) rfl ?_ ?_ hlegal).mpr ?_
  · decide
  · decide
  · decide +kernel

/-- A server that announces a leap second is refused. -/
theorem leap_reply_refused :
    ¬∀ (server : Server) (interval : UInt32) (a : Answers) (w : World) (d : Datagram),
      a.Delivers d → a.setTime = .ok → a.getDatetime ≠ none → 0 ≤ a.devSet →
      LegalReply w.rtc (rev a.dnsAddr) d →
      (uisoSntpRequest (some server) (some interval) a w).rcode = .success := by
  intro h
  have hlegal : LegalReply 1700000000 (rev 0x0A000001)
      (serverReply (rev 0x0A000001) 0x64 2 3908988800 3908988810) := by
    constructor <;> decide +kernel
  have hsuccess := h (.initial none) 0 _ (.initial 1700000000) _
    (answersWith_delivers 0x0A000001 _) rfl (by decide) (by decide) hlegal
  revert hsuccess
  decide +kernel

end Uiso.Sntp
