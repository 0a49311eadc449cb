/-
  Sntp/Request.lean --- `uiso_ntp.c`: one SNTP request.

  `uiso_sntp_request` resolves the server's name, sends a request over a fresh
  socket, receives one datagram into the array the request was built in, and
  validates what the array then holds.  A reply that passes sets the RTC, then the
  SimpleLink device's date, then the server's entry.

  THE OUTSIDE.  What name resolution, the socket calls, the RTC and the SimpleLink
  device answer is input (`Answers`).  A datagram carries the proof that it fits the
  array `sl_RecvFrom` was given.  `World` holds what outlives the call: the clock, the
  device's date, the array and `sntp_sync_state`.  Calls with an effect outside are
  recorded in order.

  THE GUARDS.  The function is a chain of blocks that run while `sntp_rcode` is
  `sntp_success`.  `exchange` is the block that talks to the server, `validateReply`
  the four that look at the reply and `synchronise` the last one, which is the only
  one that changes a clock or the server's entry.
-/
import Uiso.Gecko.Sleeptimer
import Uiso.Sntp.Packet

set_option autoImplicit false

namespace Uiso.Sntp

open Uiso.Foundation
open Uiso.Gecko
open Uiso.Network (rev rev16 SockAddrIn slAfInet)

/-! ## Data -/

/-- `sntp_server_t` -/
structure Server where
  serverName : Option String
  nextTimeStamp : UInt32
  lastTimeStamp : UInt32
  deriving DecidableEq, Repr

/-- `sl_sleeptimer_date_t`, the fields that are read -/
structure Date where
  sec : UInt8
  min : UInt8
  hour : UInt8
  monthDay : UInt8
  month : UInt8
  year : UInt16
  deriving DecidableEq, Repr

/-- `SlDateTime_t`, the fields that are written -/
structure SlDateTime where
  day : UInt32
  mon : UInt32
  year : UInt32
  hour : UInt32
  min : UInt32
  sec : UInt32
  deriving DecidableEq, Repr

/-- A datagram as `sl_RecvFrom` delivers it into a packet. -/
structure Datagram where
  bytes : List UInt8
  source : SockAddrIn
  fits : bytes.length ≤ 48
  deriving DecidableEq

/-- How `sl_sleeptimer_set_time` ends: with `SL_STATUS_OK`, and then the RTC shows the time
that was set, or with an error, and the time the RTC then shows. -/
inductive SetTime where
  | ok
  | failed (rtc : UInt32)
  deriving DecidableEq

/-- What the calls of one request answer. -/
structure Answers where
  /-- `sl_NetAppDnsGetHostByName` and the address it stores -/
  dnsStatus : Int
  dnsAddr : UInt32
  /-- `sl_Socket`, `sl_Bind`, `sl_SendTo` -/
  socket : Int
  bind : Int
  sendTo : Int
  /-- `sl_RecvFrom`; `none` is a negative result -/
  recvFrom : Option Datagram
  /-- `sl_Close` -/
  close : Int
  /-- `sl_sleeptimer_set_time` -/
  setTime : SetTime
  /-- `sl_sleeptimer_get_datetime`; `none` is a failure -/
  getDatetime : Option Date
  /-- `sl_DevSet` -/
  devSet : Int

/-- What outlives a request, apart from the server's entry. -/
structure World where
  /-- `sl_sleeptimer_get_time()` -/
  rtc : UInt32
  /-- the date of the SimpleLink device, once set -/
  slDate : Option SlDateTime
  /-- `ntp_packet` -/
  ntpPacket : Packet
  /-- `sntp_sync_state` -/
  syncState : Bool
  deriving DecidableEq

/-- The calls that reach the server or a clock. -/
inductive Call where
  | sendTo (packet : Packet) (dest : SockAddrIn)
  | setTime (time : UInt32)
  | devSet (date : SlDateTime)
  deriving DecidableEq

/-- The call that sends a request. -/
def Call.isSend : Call → Bool
  | .sendTo _ _ => true
  | _ => false

/-- What a request leaves behind. -/
structure Outcome where
  rcode : ReturnCode
  /-- `*server` -/
  server : Option Server
  /-- `*time_to_next_sync` -/
  timeToNextSync : Option UInt32
  world : World
  calls : List Call
  deriving DecidableEq

/-! ## The exchange with the server -/

/-- `get_local_ntp_time` with `sl_sleeptimer_get_time()` at `rtc`. -/
def getLocalNtpTime (rtc : UInt32) : UInt32 := (convertUnixTimeToNtp rtc).getD 0

/-- The locals after the exchange, with the packet and the calls it made. -/
structure Exchange where
  rcode : ReturnCode
  ntpPacket : Packet
  ntpSrvAddr : SockAddrIn
  ntpRecvAddr : SockAddrIn
  localOriginTimestamp : UInt32
  calls : List Call

/-- From `sl_NetAppDnsGetHostByName` to `sl_Close`. -/
def exchange (a : Answers) (w : World) : Exchange :=
  let addr : SockAddrIn := ⟨slAfInet, 0x7B00, 0⟩
  if 0 ≤ a.dnsStatus then
    let srvAddr : SockAddrIn := ⟨slAfInet, rev16 123, rev a.dnsAddr⟩
    let res := if 0 ≤ a.socket then a.bind else -1
    if 0 ≤ res then
      let origin := getLocalNtpTime w.rtc
      let packet := ((sntpPacketCreateRequest (some w.ntpPacket) origin 0 .v4).2).getD w.ntpPacket
      let calls := [.sendTo packet srvAddr]
      if 0 ≤ a.sendTo then
        match a.recvFrom with
        | some d =>
            ⟨if 0 ≤ a.close then .success else .serverIpError, packet.write d.bytes, srvAddr,
              d.source, origin, calls⟩
        | none => ⟨.serverIpError, packet, srvAddr, ⟨slAfInet, 0, 0⟩, origin, calls⟩
      else ⟨.serverIpError, packet, srvAddr, addr, origin, calls⟩
    else ⟨.serverIpError, w.ntpPacket, srvAddr, addr, 0, []⟩
  else ⟨.serverIpDnsError, w.ntpPacket, addr, addr, 0, []⟩

/-! ## The reply -/

/-- The blocks that look at the reply before anything is changed. -/
def validateReply (x : Exchange) : ReturnCode :=
  if x.rcode ≠ .success then x.rcode
  else if x.ntpRecvAddr.addr ≠ x.ntpSrvAddr.addr then .serverIpMismatch
  else if x.ntpPacket.leapVersionMode ≠ sntpServerResponseV4 ∧
      x.ntpPacket.leapVersionMode ≠ sntpServerResponseV3 then .serverReplyHeaderError
  else if x.ntpPacket.stratum = ntpStratumKod then .serverReplyKod
  else if x.ntpPacket.transmitTimestamp = 0 then .serverTransmitZero
  else .success

/-- The time stamp an accepted reply sets, or why it is not accepted: the originate
time stamp must be the request's, and the receive time stamp a time of the RTC. -/
def replyTimeStamp (origin originFraction : UInt32) (packet : Packet) :
    Except ReturnCode UInt32 :=
  if packet.originateTimestampSeconds ≠ origin then .error .serverReplyInvalid
  else if packet.originateTimestampFraction ≠ originFraction then .error .serverReplyInvalid
  else
    match convertNtpTimeToUnix packet.receiveTimestampSeconds with
    | some timeStamp => .ok timeStamp
    | none => .error .timestampFormatError

/-- The date in SimpleLink's format. -/
def slDateTimeOf (date : Date) : SlDateTime where
  day := date.monthDay.toUInt32
  mon := date.month.toUInt32 + 1
  year := date.year.toUInt32 + 1900
  hour := date.hour.toUInt32
  min := date.min.toUInt32
  sec := date.sec.toUInt32

/-- Setting the RTC, reading its date back and setting the device's date. -/
def setClocks (timeStamp : UInt32) (a : Answers) (w : World) :
    ReturnCode × World × List Call :=
  match a.setTime with
  | .ok =>
      let w := { w with rtc := timeStamp }
      match a.getDatetime with
      | some date =>
          let dateTime := slDateTimeOf date
          if a.devSet < 0 then (.setSimplelinkError, w, [.setTime timeStamp, .devSet dateTime])
          else
            (.success, { w with slDate := some dateTime },
              [.setTime timeStamp, .devSet dateTime])
      | none => (.setRtcError, w, [.setTime timeStamp])
  | .failed rtc => (.setRtcError, { w with rtc := rtc }, [.setTime timeStamp])

/-- `server_poll_interval` kept between `ntp_poll_interval_16s` and
`ntp_poll_interval_131072s`. -/
def clampPollInterval (poll : UInt8) : Nat :=
  if poll.toNat < 4 then 4 else if 17 < poll.toNat then 17 else poll.toNat

/-- The last block: the clocks, then the server's entry and the time to the next
request. -/
def synchronise (x : Exchange) (server : Server) (a : Answers) (w : World) : Outcome :=
  let failed (rcode : ReturnCode) (w : World) (calls : List Call) : Outcome :=
    { rcode, world := w, calls, timeToNextSync := some 0
      server := some { server with nextTimeStamp := 0xFFFFFFFF } }
  match replyTimeStamp x.localOriginTimestamp 0 x.ntpPacket with
  | .error rcode => failed rcode w []
  | .ok timeStamp =>
      match setClocks timeStamp a w with
      | (.success, w, calls) =>
          let interval := UInt32.ofNat (2 ^ clampPollInterval x.ntpPacket.pollInterval)
          { rcode := .success, world := w, calls, timeToNextSync := some (interval * 1000)
            server := some { server with
              lastTimeStamp := timeStamp
              nextTimeStamp := timeStamp + interval } }
      | (rcode, w, calls) => failed rcode w calls

/-! ## The request -/

/-- `uiso_sntp_request`; `none` is a null pointer. -/
def uisoSntpRequest (server : Option Server) (timeToNextSync : Option UInt32) (a : Answers)
    (w : World) : Outcome :=
  match server, timeToNextSync with
  | some server, some interval =>
      let x := exchange a w
      let w := { w with ntpPacket := x.ntpPacket }
      let o :=
        if validateReply x = .success then synchronise x server a w
        else ⟨validateReply x, some server, some interval, w, []⟩
      { o with
        world := { o.world with syncState := o.rcode == .success }
        calls := x.calls ++ o.calls }
  | server, timeToNextSync => ⟨.serverNoServer, server, timeToNextSync, w, []⟩

/-! ## How a request ends -/

/-- Name resolution and the socket calls succeed, and `d` arrives. -/
structure Answers.Delivers (a : Answers) (d : Datagram) : Prop where
  dns : 0 ≤ a.dnsStatus
  socket : 0 ≤ a.socket
  bind : 0 ≤ a.bind
  sendTo : 0 ≤ a.sendTo
  recvFrom : a.recvFrom = some d
  close : 0 ≤ a.close

/-- What `ntp_packet` holds once `d` has been received over the request. -/
def replyPacket (rtc : UInt32) (d : Datagram) : Packet :=
  (requestPacket (getLocalNtpTime rtc) 0).write d.bytes

/-- The reply passes every check that comes before the last block. -/
structure Validated (a : Answers) (rtc : UInt32) (d : Datagram) : Prop where
  delivers : a.Delivers d
  source : d.source.addr = rev a.dnsAddr
  header : (replyPacket rtc d).leapVersionMode = sntpServerResponseV4 ∨
    (replyPacket rtc d).leapVersionMode = sntpServerResponseV3
  stratum : (replyPacket rtc d).stratum ≠ ntpStratumKod
  transmit : (replyPacket rtc d).transmitTimestamp ≠ 0

theorem exchange_of_delivers {a : Answers} {d : Datagram} (h : a.Delivers d) (w : World) :
    exchange a w =
      ⟨.success, replyPacket w.rtc d, ⟨slAfInet, rev16 123, rev a.dnsAddr⟩, d.source,
        getLocalNtpTime w.rtc,
        [.sendTo (requestPacket (getLocalNtpTime w.rtc) 0)
          ⟨slAfInet, rev16 123, rev a.dnsAddr⟩]⟩ := by
  simp [exchange, h.dns, h.socket, h.bind, h.sendTo, h.recvFrom, h.close,
    sntpPacketCreateRequest_v4, replyPacket]

/-- Name resolution, `sl_Socket` and `sl_Bind` succeed, so that the request is sent. -/
structure Answers.Sends (a : Answers) : Prop where
  dns : 0 ≤ a.dnsStatus
  socket : 0 ≤ a.socket
  bind : 0 ≤ a.bind

instance (a : Answers) : Decidable a.Sends :=
  decidable_of_iff (0 ≤ a.dnsStatus ∧ 0 ≤ a.socket ∧ 0 ≤ a.bind)
    ⟨fun h => ⟨h.1, h.2.1, h.2.2⟩, fun h => ⟨h.dns, h.socket, h.bind⟩⟩

/-- The exchange sends one request, to the resolved address, or nothing. -/
theorem exchange_calls (a : Answers) (w : World) :
    (exchange a w).calls =
      if a.Sends then
        [.sendTo (requestPacket (getLocalNtpTime w.rtc) 0)
          ⟨slAfInet, rev16 123, rev a.dnsAddr⟩]
      else [] := by
  by_cases hdns : 0 ≤ a.dnsStatus
  · by_cases hopen : 0 ≤ if 0 ≤ a.socket then a.bind else -1
    · have hsocket : 0 ≤ a.socket := by
        by_contra hsocket
        simp [hsocket] at hopen
      have hsends : a.Sends := ⟨hdns, hsocket, by simpa [hsocket] using hopen⟩
      cases hrecv : a.recvFrom <;> by_cases hsend : 0 ≤ a.sendTo <;>
        simp [exchange, hdns, hopen, hsend, hrecv, hsends, sntpPacketCreateRequest_v4]
    · have hsends : ¬a.Sends := by
        intro h
        simp [h.socket, h.bind] at hopen
      simp [exchange, hdns, hopen, hsends]
  · have hsends : ¬a.Sends := fun h => hdns h.dns
    simp [exchange, hdns, hsends]

theorem synchronise_sends_nothing (x : Exchange) (server : Server) (a : Answers) (w : World) :
    (synchronise x server a w).calls.any Call.isSend = false := by
  unfold synchronise
  cases replyTimeStamp x.localOriginTimestamp 0 x.ntpPacket with
  | error rcode => rfl
  | ok time =>
      cases hset : a.setTime <;> cases hdate : a.getDatetime <;> by_cases hdev : a.devSet < 0 <;>
        simp [setClocks, hset, hdate, hdev, Call.isSend]

/-- A request is sent precisely if name resolution, `sl_Socket` and `sl_Bind` succeed. -/
theorem uisoSntpRequest_sends (server : Server) (interval : UInt32) (a : Answers) (w : World) :
    (uisoSntpRequest (some server) (some interval) a w).calls.any Call.isSend =
      decide a.Sends := by
  simp only [uisoSntpRequest, List.any_append, exchange_calls]
  have hsync := synchronise_sends_nothing (exchange a w) server a
    { w with ntpPacket := (exchange a w).ntpPacket }
  have hexchange : (if a.Sends then [Call.sendTo (requestPacket (getLocalNtpTime w.rtc) 0)
      ⟨slAfInet, rev16 123, rev a.dnsAddr⟩] else []).any Call.isSend = decide a.Sends := by
    by_cases hsends : a.Sends <;> simp [hsends, Call.isSend]
  by_cases hvalid : validateReply (exchange a w) = .success
  · rw [if_pos hvalid, hsync, hexchange, Bool.or_false]
  · rw [if_neg hvalid, hexchange]
    simp

theorem delivers_of_exchange {a : Answers} {w : World} (h : (exchange a w).rcode = .success) :
    ∃ d, a.Delivers d := by
  by_cases hdns : 0 ≤ a.dnsStatus
  · by_cases hopen : 0 ≤ if 0 ≤ a.socket then a.bind else -1
    · have hsocket : 0 ≤ a.socket := by
        by_contra hsocket
        simp [hsocket] at hopen
      by_cases hsend : 0 ≤ a.sendTo
      · cases hrecv : a.recvFrom with
        | none => simp [exchange, hdns, hopen, hsend, hrecv] at h
        | some d =>
            by_cases hclose : 0 ≤ a.close
            · exact ⟨d, hdns, hsocket, by simpa [hsocket] using hopen, hsend, hrecv, hclose⟩
            · simp [exchange, hdns, hopen, hsend, hrecv, hclose] at h
      · simp [exchange, hdns, hopen, hsend] at h
    · simp [exchange, hdns, hopen] at h
  · simp [exchange, hdns] at h

theorem validateReply_eq_success {a : Answers} {w : World} :
    validateReply (exchange a w) = .success ↔ ∃ d, Validated a w.rtc d := by
  constructor
  · intro h
    have hexchange : (exchange a w).rcode = .success := by
      by_contra hne
      simp [validateReply, hne] at h
    obtain ⟨d, hd⟩ := delivers_of_exchange hexchange
    rw [exchange_of_delivers hd] at h
    simp only [validateReply] at h
    rw [if_neg (by simp)] at h
    split_ifs at h with hsource hheader hstratum htransmit
    refine ⟨d, hd, not_not.mp hsource, ?_, hstratum, htransmit⟩
    by_contra hnone
    exact hheader (not_or.mp hnone)
  · rintro ⟨d, hd, hsource, hheader, hstratum, htransmit⟩
    rw [exchange_of_delivers hd]
    have hheader' := not_and_or.mpr (hheader.imp not_not.mpr not_not.mpr)
    simp only [validateReply, hsource, hheader', hstratum, htransmit]
    simp

/-- The ways a request with a server and a place for the interval can end.  Each case
says when it happens and what it leaves. -/
inductive Ends (server : Server) (interval : UInt32) (a : Answers) (w : World) (o : Outcome) :
    Prop where
  /-- the exchange or a check of the reply failed -/
  | refused (notValidated : ∀ d, ¬Validated a w.rtc d)
      (code : o.rcode = validateReply (exchange a w)) (failed : o.rcode ≠ .success)
      (entry : o.server = some server) (next : o.timeToNextSync = some interval)
      (clock : o.world.rtc = w.rtc) (date : o.world.slDate = w.slDate)
      (calls : o.calls = (exchange a w).calls)
  /-- the reply answers another request, or its time does not fit the RTC -/
  | rejected (d : Datagram) (validated : Validated a w.rtc d) (rcode : ReturnCode)
      (reply : replyTimeStamp (getLocalNtpTime w.rtc) 0 (replyPacket w.rtc d) = .error rcode)
      (code : o.rcode = rcode) (failed : o.rcode ≠ .success)
      (entry : o.server = some { server with nextTimeStamp := 0xFFFFFFFF })
      (clock : o.world.rtc = w.rtc) (date : o.world.slDate = w.slDate)
      (calls : o.calls = (exchange a w).calls)
  /-- the RTC could not be set -/
  | notSet (d : Datagram) (validated : Validated a w.rtc d) (time : UInt32)
      (reply : replyTimeStamp (getLocalNtpTime w.rtc) 0 (replyPacket w.rtc d) = .ok time)
      (rtc : UInt32) (set : a.setTime = .failed rtc) (code : o.rcode = .setRtcError)
      (entry : o.server = some { server with nextTimeStamp := 0xFFFFFFFF })
      (clock : o.world.rtc = rtc) (date : o.world.slDate = w.slDate)
      (calls : o.calls = (exchange a w).calls ++ [.setTime time])
  /-- the RTC was set and a later step failed -/
  | halfSet (d : Datagram) (validated : Validated a w.rtc d) (time : UInt32)
      (reply : replyTimeStamp (getLocalNtpTime w.rtc) 0 (replyPacket w.rtc d) = .ok time)
      (set : a.setTime = .ok) (later : a.getDatetime = none ∨ a.devSet < 0)
      (code : o.rcode = .setRtcError ∨ o.rcode = .setSimplelinkError)
      (entry : o.server = some { server with nextTimeStamp := 0xFFFFFFFF })
      (clock : o.world.rtc = time) (date : o.world.slDate = w.slDate)
      (calls : ∃ rest, o.calls = (exchange a w).calls ++ .setTime time :: rest ∧
        ∀ t, .setTime t ∉ rest)
  /-- both clocks were set -/
  | synchronised (d : Datagram) (validated : Validated a w.rtc d) (time : UInt32)
      (reply : replyTimeStamp (getLocalNtpTime w.rtc) 0 (replyPacket w.rtc d) = .ok time)
      (set : a.setTime = .ok) (datetime : a.getDatetime ≠ none) (devSet : 0 ≤ a.devSet)
      (code : o.rcode = .success)
      (clock : o.world.rtc = time)
      (calls : ∃ date, o.calls = (exchange a w).calls ++ [.setTime time, .devSet date])

theorem replyTimeStamp_error_ne_success {origin fraction : UInt32} {packet : Packet}
    {rcode : ReturnCode} (h : replyTimeStamp origin fraction packet = .error rcode) :
    rcode ≠ .success := by
  unfold replyTimeStamp at h
  rintro rfl
  repeat' split at h
  all_goals cases h

/-- Every request ends in one of these ways. -/
theorem uisoSntpRequest_ends (server : Server) (interval : UInt32) (a : Answers) (w : World) :
    Ends server interval a w (uisoSntpRequest (some server) (some interval) a w) := by
  by_cases hvalid : validateReply (exchange a w) = .success
  · obtain ⟨d, hd⟩ := validateReply_eq_success.mp hvalid
    have hpacket : (exchange a w).ntpPacket = replyPacket w.rtc d := by
      rw [exchange_of_delivers hd.delivers]
    have horigin : (exchange a w).localOriginTimestamp = getLocalNtpTime w.rtc := by
      rw [exchange_of_delivers hd.delivers]
    cases hreply : replyTimeStamp (getLocalNtpTime w.rtc) 0 (replyPacket w.rtc d) with
    | error rcode =>
        have hne := replyTimeStamp_error_ne_success hreply
        refine .rejected d hd rcode hreply ?_ ?_ ?_ ?_ ?_ ?_ <;>
          simp [uisoSntpRequest, hvalid, synchronise, hpacket, horigin, hreply, hne]
    | ok time =>
        cases hset : a.setTime with
        | failed rtc =>
            refine .notSet d hd time hreply rtc hset ?_ ?_ ?_ ?_ ?_ <;>
              simp [uisoSntpRequest, hvalid, synchronise, hpacket, horigin, hreply, setClocks, hset]
        | ok =>
            cases hdate : a.getDatetime with
            | none =>
                refine .halfSet d hd time hreply hset (.inl hdate) ?_ ?_ ?_ ?_ ⟨[], ?_, ?_⟩ <;>
                  simp [uisoSntpRequest, hvalid, synchronise, hpacket, horigin, hreply, setClocks,
                    hset, hdate]
            | some date =>
                by_cases hdev : a.devSet < 0
                · refine .halfSet d hd time hreply hset (.inr hdev) ?_ ?_ ?_ ?_
                    ⟨[.devSet (slDateTimeOf date)], ?_, ?_⟩ <;>
                    simp [uisoSntpRequest, hvalid, synchronise, hpacket, horigin, hreply, setClocks,
                      hset, hdate, hdev]
                · refine .synchronised d hd time hreply hset (by simp [hdate]) (by omega) ?_ ?_
                    ⟨slDateTimeOf date, ?_⟩ <;>
                    simp [uisoSntpRequest, hvalid, synchronise, hpacket, horigin, hreply, setClocks,
                      hset, hdate, hdev]
  · refine .refused ?_ ?_ ?_ ?_ ?_ ?_ ?_ ?_
    · intro d hd
      exact hvalid (validateReply_eq_success.mpr ⟨d, hd⟩)
    all_goals simp [uisoSntpRequest, hvalid]

/-- What a request that succeeds leaves: `time` is the time of the reply `d`, and `date`
the date the RTC shows once it is set. -/
structure Synchronised (server : Server) (a : Answers) (w : World) (o : Outcome) (d : Datagram)
    (time : UInt32) (date : Date) : Prop where
  reply : replyTimeStamp (getLocalNtpTime w.rtc) 0 (replyPacket w.rtc d) = .ok time
  set : a.setTime = .ok
  datetime : a.getDatetime = some date
  entry : o.server = some { server with
    lastTimeStamp := time
    nextTimeStamp :=
      time + UInt32.ofNat (2 ^ clampPollInterval (replyPacket w.rtc d).pollInterval) }
  next : o.timeToNextSync =
    some (UInt32.ofNat (2 ^ clampPollInterval (replyPacket w.rtc d).pollInterval) * 1000)
  device : o.world.slDate = some (slDateTimeOf date)
  calls : o.calls = (exchange a w).calls ++ [.setTime time, .devSet (slDateTimeOf date)]

theorem uisoSntpRequest_success {server : Server} {interval : UInt32} {a : Answers} {w : World}
    (h : (uisoSntpRequest (some server) (some interval) a w).rcode = .success) :
    ∃ d time date, Validated a w.rtc d ∧
      Synchronised server a w (uisoSntpRequest (some server) (some interval) a w) d time date := by
  cases uisoSntpRequest_ends server interval a w with
  | refused _ _ hfailed => exact absurd h hfailed
  | rejected _ _ _ _ _ hfailed => exact absurd h hfailed
  | notSet _ _ _ _ _ _ hcode =>
      rw [hcode] at h
      cases h
  | halfSet _ _ _ _ _ _ hcode =>
      rcases hcode with hcode | hcode <;>
      · rw [hcode] at h
        cases h
  | synchronised d hd time hreply hset hdate hdev _ _ _ =>
      obtain ⟨date, hdate⟩ := Option.ne_none_iff_exists'.mp hdate
      have hvalid := validateReply_eq_success.mpr ⟨d, hd⟩
      have hpacket : (exchange a w).ntpPacket = replyPacket w.rtc d := by
        rw [exchange_of_delivers hd.delivers]
      have horigin : (exchange a w).localOriginTimestamp = getLocalNtpTime w.rtc := by
        rw [exchange_of_delivers hd.delivers]
      have hdev' : ¬a.devSet < 0 := by omega
      refine ⟨d, time, date, hd, hreply, hset, hdate, ?_, ?_, ?_, ?_⟩ <;>
        simp [uisoSntpRequest, hvalid, synchronise, hpacket, horigin, hreply, setClocks, hset,
          hdate, hdev']

end Uiso.Sntp
