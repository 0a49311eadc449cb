/-
  Sntp/Clocks.lean --- the clocks of the board after a request.

  A request that succeeds sets the RTC, enters the server's time and sends the device the
  date the RTC then shows.  That date is a local one: the RTC has a time zone, which
  `BOARD_Init` sets with the default date.  Here a request runs on the wall clock of the SDK,
  whose answers are no longer input.
-/
import Uiso.Board.Clock
import Uiso.Sntp.Acceptance

set_option autoImplicit false

namespace Uiso.Sntp

open Uiso.Foundation.Calendar
open Uiso.Gecko
open Uiso.Network (rev)

/-! ## Requests on the wall clock -/

/-- The fields of a date a request reads. -/
def Date.ofSleeptimer (d : SleeptimerDate) : Date where
  sec := d.sec
  min := d.min
  hour := d.hour
  monthDay := d.monthDay
  month := d.month
  year := d.year

/-- The time in the reply of a request, if it may be set. -/
def replyTime (a : Answers) (w : World) : Option UInt32 :=
  (replyTimeStamp (exchange a w).localOriginTimestamp 0 (exchange a w).ntpPacket).toOption

/-- What `sl_sleeptimer_set_time` answers on the wall clock `c`. -/
def SetTime.onClock (c : WallClock) (time : UInt32) : SetTime :=
  match c.setTime time with
  | (true, _) => .ok
  | (false, c) => .failed c.getTime

/-- The answers of the wall clock `c`, in the place of those of `a`.  Without a time to set
the clock is not called. -/
def Answers.onClock (a : Answers) (c : WallClock) (w : World) : Answers :=
  { a with
    setTime := (replyTime a w).elim a.setTime (SetTime.onClock c)
    getDatetime := (replyTime a w).elim a.getDatetime fun time =>
      (c.setTime time).2.getDatetime.map .ofSleeptimer }

/-- What a call makes of the wall clock. -/
def Call.onClock (c : WallClock) : Call → WallClock
  | .setTime time => (c.setTime time).2
  | _ => c

/-- `uiso_sntp_request` on a wall clock that does not advance during the call. -/
def requestOnClock (server : Server) (interval : UInt32) (a : Answers) (w : World)
    (c : WallClock) : Outcome × WallClock :=
  let w := { w with rtc := c.getTime }
  let o := uisoSntpRequest (some server) (some interval) (a.onClock c w) w
  (o, o.calls.foldl Call.onClock c)

/-! ## The clocks after a request -/

/-- A date of the device in the terms of the calendar. -/
def SlDateTime.dateTime (d : SlDateTime) : DateTime where
  year := d.year.toNat
  month := d.mon.toNat
  day := d.day.toNat
  hour := d.hour.toNat
  minute := d.min.toNat
  second := d.sec.toNat

/-- The RTC and the server's entry have the time `t`, and the date sent to the device is
its date. -/
structure ClocksAgree (t : UInt32) (r : Outcome × WallClock) : Prop where
  rtc : r.2.getTime = t
  entry : r.1.server.map Server.lastTimeStamp = some t
  device : ∃ date, Call.devSet date ∈ r.1.calls ∧ r.1.world.slDate = some date ∧
    IsUtc t.toNat date.dateTime

/-- The device is sent the date the RTC shows. -/
theorem slDateTimeOf_dateTime (d : SleeptimerDate) :
    (slDateTimeOf (.ofSleeptimer d)).dateTime = d.dateTime := by
  have hmonth := d.month.toNat_lt
  have hyear := d.year.toNat_lt
  have hmonth' : (d.month.toUInt32 + 1).toNat = d.month.toNat + 1 := by
    rw [UInt32.toNat_add, UInt8.toNat_toUInt32, UInt32.toNat_one]
    omega
  have hyear' : (d.year.toUInt32 + 1900).toNat = 1900 + d.year.toNat := by
    have h1900 : (1900 : UInt32).toNat = 1900 := rfl
    rw [UInt32.toNat_add, UInt16.toNat_toUInt32, h1900]
    omega
  simp only [SlDateTime.dateTime, slDateTimeOf, Date.ofSleeptimer, SleeptimerDate.dateTime, hmonth',
    hyear', UInt8.toNat_toUInt32]

/-- The answers of the clock play no part in the exchange. -/
theorem exchange_eq_onClock (a : Answers) (c : WallClock) (w : World) :
    exchange a w = exchange (a.onClock c w) w :=
  rfl

/-- The exchange leaves the wall clock. -/
theorem exchange_onClock (a : Answers) (w : World) (c : WallClock) :
    (exchange a w).calls.foldl Call.onClock c = c := by
  rw [exchange_calls]
  split <;> rfl

/-- A call that is no `sl_sleeptimer_set_time` leaves the wall clock. -/
theorem foldl_onClock {calls : List Call} (h : ∀ t, .setTime t ∉ calls) (c : WallClock) :
    calls.foldl Call.onClock c = c := by
  induction calls with
  | nil => rfl
  | cons call calls ih =>
      have hrest : ∀ t, .setTime t ∉ calls := fun t ht => h t (List.mem_cons_of_mem _ ht)
      cases call with
      | sendTo => exact ih hrest
      | setTime t => exact absurd List.mem_cons_self (h t)
      | devSet => exact ih hrest

theorem SetTime.onClock_ok {c : WallClock} {time : UInt32} :
    SetTime.onClock c time = .ok ↔ (c.setTime time).1 = true := by
  rw [SetTime.onClock]
  split <;> simp [*]

theorem SetTime.onClock_failed {c : WallClock} {time rtc : UInt32}
    (h : SetTime.onClock c time = .failed rtc) :
    (c.setTime time).1 = false ∧ (c.setTime time).2.getTime = rtc := by
  rw [SetTime.onClock] at h
  split at h
  · cases h
  · rename_i hset
    rw [hset]
    exact ⟨rfl, SetTime.failed.inj h⟩

/-- The time of a reply that passed the checks before the last block. -/
theorem replyTime_of_delivers {a : Answers} {w : World} {d : Datagram} {time : UInt32}
    (hdelivers : a.Delivers d)
    (hreply : replyTimeStamp (getLocalNtpTime w.rtc) 0 (replyPacket w.rtc d) = .ok time) :
    replyTime a w = some time := by
  rw [replyTime, exchange_of_delivers hdelivers, hreply]
  rfl

/-- The answers of the clock play no part in the checks before the last block. -/
theorem validated_onClock {a : Answers} {c : WallClock} {w : World} {rtc : UInt32} {d : Datagram} :
    Validated (a.onClock c w) rtc d ↔ Validated a rtc d := by
  constructor <;>
  · rintro ⟨⟨hdns, hsocket, hbind, hsend, hrecv, hclose⟩, hsource, hheader, hstratum, htransmit⟩
    exact ⟨⟨hdns, hsocket, hbind, hsend, hrecv, hclose⟩, hsource, hheader, hstratum, htransmit⟩

/-- A reply with the time `time` has the clock answer for it. -/
theorem onClock_of_reply {a : Answers} {w : World} {d : Datagram} {time : UInt32} (c : WallClock)
    (hd : Validated a w.rtc d)
    (hreply : replyTimeStamp (getLocalNtpTime w.rtc) 0 (replyPacket w.rtc d) = .ok time) :
    (a.onClock c w).setTime = SetTime.onClock c time ∧
      (a.onClock c w).getDatetime = (c.setTime time).2.getDatetime.map .ofSleeptimer := by
  have htime := replyTime_of_delivers hd.delivers hreply
  simp only [Answers.onClock, htime, Option.elim_some, and_self]

/-- What the request says of the RTC is what the wall clock then shows. -/
theorem requestOnClock_rtc (server : Server) (interval : UInt32) (a : Answers) (w : World)
    (c : WallClock) :
    (requestOnClock server interval a w c).2.getTime =
      (requestOnClock server interval a w c).1.world.rtc := by
  have hcalled : ∀ {d time}, Validated (a.onClock c { w with rtc := c.getTime }) c.getTime d →
      replyTimeStamp (getLocalNtpTime c.getTime) 0 (replyPacket c.getTime d) = .ok time →
      (a.onClock c { w with rtc := c.getTime }).setTime = SetTime.onClock c time := by
    intro d time hd hreply
    exact (onClock_of_reply c (w := { w with rtc := c.getTime }) (validated_onClock.mp hd)
      hreply).1
  unfold requestOnClock
  cases uisoSntpRequest_ends server interval (a.onClock c { w with rtc := c.getTime })
    { w with rtc := c.getTime } with
  | refused _ _ _ _ _ hclock _ hcalls =>
      simp only [hcalls, exchange_onClock, hclock]
  | rejected _ _ _ _ _ _ _ hclock _ hcalls =>
      simp only [hcalls, exchange_onClock, hclock]
  | notSet d hd time hreply rtc hset _ _ hclock _ hcalls =>
      rw [hcalled hd hreply] at hset
      simp only [hcalls, List.foldl_append, exchange_onClock, hclock]
      exact (SetTime.onClock_failed hset).2
  | halfSet d hd time hreply hset _ _ _ hclock _ hcalls =>
      rw [hcalled hd hreply] at hset
      obtain ⟨rest, hcalls, hrest⟩ := hcalls
      simp only [hcalls, List.foldl_append, List.foldl_cons, exchange_onClock,
        foldl_onClock hrest, hclock]
      exact WallClock.getTime_setTime (SetTime.onClock_ok.mp hset)
  | synchronised d hd time hreply hset _ _ _ hclock hcalls =>
      rw [hcalled hd hreply] at hset
      obtain ⟨date, hcalls⟩ := hcalls
      simp only [hcalls, List.foldl_append, exchange_onClock, hclock]
      exact WallClock.getTime_setTime (SetTime.onClock_ok.mp hset)

/-- The date of a clock whose time zone is less than a day from UTC is the date of its time
only without a time zone. -/
theorem getDatetime_utc_iff {c : WallClock} {d : SleeptimerDate} (hd : c.getDatetime = some d)
    (hzone : c.tzOffset.natAbs < 86400) :
    IsUtc c.getTime.toNat d.dateTime ↔
      c.tzOffset = 0 ∧ ShownAsIs (c.getTime.toNat / 86400) := by
  have hvalid : isValidTime c.getTime .unix c.tzOffset = true := by
    by_contra hinvalid
    rw [WallClock.getDatetime, convertTimeToDate, if_neg hinvalid] at hd
    cases hd
  have hlocal := localTime_eq hvalid
  have hrange : c.getTime.toNat ≤ 0x7FFFFFFF := by
    simp only [isValidTime, Bool.and_eq_true, decide_eq_true_eq] at hvalid
    exact UInt32.le_iff_toNat_le.mp hvalid.2
  obtain ⟨d', hd', hconverted⟩ := convertTimeToDate_eq hvalid (by omega)
  obtain rfl := Option.some.inj (hd'.symm.trans hd)
  rw [hconverted.utc, shown_iff (by omega) (by omega)]
  have hzero : localTime c.getTime c.tzOffset = c.getTime.toNat ↔ c.tzOffset = 0 := by omega
  rw [hzero]

/-- What a request that succeeds does to the clocks: `d` is the date the RTC then shows. -/
structure SetsClocks (t : UInt32) (c : WallClock) (d : SleeptimerDate)
    (r : Outcome × WallClock) : Prop where
  rtc : r.2.getTime = t
  zone : r.2.tzOffset = c.tzOffset
  datetime : r.2.getDatetime = some d
  entry : r.1.server.map Server.lastTimeStamp = some t
  calls : Call.devSet (slDateTimeOf (.ofSleeptimer d)) ∈ r.1.calls
  device : r.1.world.slDate = some (slDateTimeOf (.ofSleeptimer d))

theorem requestOnClock_setsClocks {server : Server} {interval : UInt32} {a : Answers} {w : World}
    {c : WallClock} {t : UInt32} (ht : replyTime a { w with rtc := c.getTime } = some t)
    (hsuccess : (requestOnClock server interval a w c).1.rcode = .success) :
    ∃ d, SetsClocks t c d (requestOnClock server interval a w c) := by
  obtain ⟨e, time, date, hvalid, hsync⟩ := uisoSntpRequest_success hsuccess
  have hexchange := exchange_of_delivers hvalid.delivers { w with rtc := c.getTime }
  have htime : replyTime a { w with rtc := c.getTime } = some time := by
    rw [replyTime, exchange_eq_onClock a c, hexchange, hsync.reply]
    rfl
  obtain rfl : time = t := Option.some.inj (htime.symm.trans ht)
  have hset : (c.setTime time).1 = true := by
    have h := hsync.set
    rw [Answers.onClock, htime] at h
    exact SetTime.onClock_ok.mp h
  have hdate : (c.setTime time).2.getDatetime.map Date.ofSleeptimer = some date := by
    have h := hsync.datetime
    rw [Answers.onClock, htime] at h
    exact h
  obtain ⟨d, hd, rfl⟩ := Option.map_eq_some_iff.mp hdate
  have hclock : (requestOnClock server interval a w c).2 = (c.setTime time).2 := by
    rw [requestOnClock, hsync.calls, List.foldl_append, exchange_onClock]
    rfl
  refine ⟨d, ?_, ?_, ?_, ?_, ?_, hsync.device⟩
  · rw [hclock]
    exact WallClock.getTime_setTime hset
  · rw [hclock]
    exact WallClock.setTime_tzOffset time c
  · rw [hclock]
    exact hd
  · rw [requestOnClock, hsync.entry]
    rfl
  · rw [requestOnClock, hsync.calls]
    simp

theorem SetsClocks.agree_iff {t : UInt32} {c : WallClock} {d : SleeptimerDate}
    {r : Outcome × WallClock} (h : SetsClocks t c d r) (hzone : c.tzOffset.natAbs < 86400) :
    ClocksAgree t r ↔ c.tzOffset = 0 ∧ ShownAsIs (t.toNat / 86400) := by
  have hutc := getDatetime_utc_iff h.datetime (h.zone ▸ hzone)
  rw [h.rtc, h.zone] at hutc
  rw [← hutc]
  constructor
  · rintro ⟨-, -, date, -, hdate, hdevice⟩
    obtain rfl := Option.some.inj (h.device.symm.trans hdate)
    rwa [slDateTimeOf_dateTime] at hdevice
  · intro hdevice
    refine ⟨h.rtc, h.entry, _, h.calls, h.device, ?_⟩
    rwa [slDateTimeOf_dateTime]

/-- After a request that succeeds, the clocks agree precisely if the RTC has no time zone and
shows the day of the server's time as it is. -/
theorem clocks_agree_iff (server : Server) (interval : UInt32) (a : Answers) (w : World)
    (c : WallClock) (hzone : c.tzOffset.natAbs < 86400) (t : UInt32)
    (ht : replyTime a { w with rtc := c.getTime } = some t)
    (hsuccess : (requestOnClock server interval a w c).1.rcode = .success) :
    ClocksAgree t (requestOnClock server interval a w c) ↔
      c.tzOffset = 0 ∧ ShownAsIs (t.toNat / 86400) := by
  obtain ⟨d, hsets⟩ := requestOnClock_setsClocks ht hsuccess
  exact hsets.agree_iff hzone

/-- On the clock `BOARD_Init` leaves, no request makes the clocks agree: its time zone is one
second from UTC. -/
theorem boardInit_disagrees {date : SleeptimerDate} {c : WallClock} {server : Server}
    {interval : UInt32} {a : Answers} {w : World} {t : UInt32}
    (hcounter : c.counter / c.frequency ≤ 1668160799)
    (ht : replyTime a { w with rtc := (Board.boardInitClock date c).getTime } = some t)
    (hsuccess :
      (requestOnClock server interval a w (Board.boardInitClock date c)).1.rcode = .success) :
    ¬ClocksAgree t (requestOnClock server interval a w (Board.boardInitClock date c)) := by
  have hzone := (Board.boardInitClock_eq date hcounter).1
  obtain ⟨d, hsets⟩ := requestOnClock_setsClocks ht hsuccess
  rw [hsets.agree_iff (by rw [hzone]; decide), hzone]
  exact fun h => absurd h.1 (by decide)

/-- The clock after a reset. -/
def resetClock : WallClock := { Board.clockAt 0 with tzOffset := 0 }

/-- A reply to a request made at the default date. -/
def replyAtDefault : Answers :=
  answersWith 0x0A000001 (serverReply (rev 0x0A000001) 0x24 2 3877149599 3908988810)

theorem clocks_agree_iff_utc :
    ClocksAgree 1700000010 (requestOnClock (.initial none) 0 replyAtDefault (.initial 0)
      { Board.clockAt 1668160799 with tzOffset := 0 }) :=
  (clocks_agree_iff _ _ _ _ _ (by decide) _ (by decide +kernel) (by decide +kernel)).mpr
    (by decide)

/-- On the clock `BOARD_Init` leaves, the device is one second ahead. -/
theorem clocks_disagree_after_board_init :
    ¬∀ (date : SleeptimerDate) (c : WallClock) (server : Server) (interval : UInt32) (a : Answers)
      (w : World) (t : UInt32),
      replyTime a { w with rtc := (Board.boardInitClock date c).getTime } = some t →
      (requestOnClock server interval a w (Board.boardInitClock date c)).1.rcode = .success →
      ClocksAgree t (requestOnClock server interval a w (Board.boardInitClock date c)) := by
  intro h
  have ht : replyTime replyAtDefault
      { World.initial 0 with rtc := (Board.boardInitClock Board.anyDate resetClock).getTime } =
        some 1700000010 := by
    decide +kernel
  have hsuccess : (requestOnClock (.initial none) 0 replyAtDefault (.initial 0)
      (Board.boardInitClock Board.anyDate resetClock)).1.rcode = .success := by
    decide +kernel
  exact boardInit_disagrees (by decide) ht hsuccess (h _ _ _ _ _ _ _ ht hsuccess)

end Uiso.Sntp
