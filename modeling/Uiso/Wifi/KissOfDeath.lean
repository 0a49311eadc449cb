/-
  Wifi/KissOfDeath.lean --- the wifi service together with the SNTP client it calls.

  In `Wifi.machine` the outcome of `uiso_sntp_request` is part of the label.  Here the
  request is run: the label of a task step carries what the network answers, and the
  reply, the server's entry and the clocks are computed from it.  Seen without the SNTP
  data every run is a run of `Wifi.machine` (`run_wifi`).

  A kiss-of-death tells a client to stop asking that server.  The guard that recognises
  it skips the block that would mark the server's entry, `select_server_from_list`
  always returns the first entry, and `wifi_task` re-arms the timer after every failure.
  So the same server is asked again after 16 s, as long as a request can be sent at all.
-/
import Uiso.Foundation.Trace
import Uiso.Sntp.Acceptance
import Uiso.Wifi.Task

set_option autoImplicit false

namespace Uiso.Wifi

open Uiso.Foundation
open Uiso.Sntp

/-! ## The servers -/

/-- An entry of `sntp_server_list`. -/
abbrev ServerId := Fin 9

/-- `sntp_server_list[].server_name` -/
def serverNames : List String :=
  ["0.de.pool.ntp.org", "1.de.pool.ntp.org", "2.de.pool.ntp.org", "3.de.pool.ntp.org",
    "time1.google.com", "time2.google.com", "time3.google.com", "time4.google.com"]

/-- `sntp_server_list` at start-up; the last entry has no name. -/
def sntpServerList (id : ServerId) : Server := .initial serverNames[id.val]?

/-- `select_server_from_list` -/
def selectServerFromList : ServerId := 0

/-! ## The system -/

/-- What the network sees of the requests. -/
inductive Event where
  /-- a request to the server of this entry is handed to `sl_SendTo` -/
  | sent (server : ServerId)
  /-- `uiso_sntp_request` returns `sntp_server_reply_kod` for this entry -/
  | kod (server : ServerId)
  deriving DecidableEq

/-- The wifi service with the SNTP client's data. -/
structure System where
  wifi : State
  servers : ServerId → Server
  world : World
  log : List Event

/-- The system at start-up. -/
def System.init (rtc : UInt32) : System := ⟨State.init, sntpServerList, .initial rtc, []⟩

/-- The call of `uiso_sntp_request` in `wifi_task`. -/
def System.request (s : System) (a : Answers) : Sntp.Reply × System :=
  let server := selectServerFromList
  let o := uisoSntpRequest (some (s.servers server)) (some 0) a s.world
  (⟨o.rcode, (o.timeToNextSync.getD 0).toNat, o.world.syncState⟩,
    { s with
      servers := Function.update s.servers server (o.server.getD (s.servers server))
      world := o.world
      log := s.log ++ (if o.calls.any Call.isSend then [.sent server] else []) ++
        (if o.rcode = .serverReplyKod then [.kod server] else []) })

/-- `wifi_task` is about to call `uiso_sntp_request`. -/
def Pc.atRequest : Pc → Bool
  | .running _ .ntpRequest => true
  | _ => false

/-- One action of the system. -/
inductive Label where
  /-- anything but a step of `wifi_task` -/
  | event (action : Action)
  /-- the next statement of `wifi_task`, with what the network answers if it is the
  request -/
  | task (answers : Answers)

/-- One step of the system. -/
def System.step (s : System) : Label → Option System
  | .event (.task _) => none
  | .event action => (Wifi.step s.wifi action).map ({ s with wifi := · })
  | .task a =>
      if s.wifi.pc.atRequest then
        let (reply, s') := s.request a
        (wifiTask s.wifi reply).map ({ s' with wifi := · })
      else (wifiTask s.wifi default).map ({ s with wifi := · })

/-- The system as a machine. -/
def systemMachine : Machine System Label := ⟨System.step⟩

theorem step_event {s s' : System} {action : Action}
    (h : systemMachine.step s (.event action) = some s') :
    machine.step s.wifi action = some s'.wifi ∧ s'.log = s.log := by
  cases action <;> simp only [systemMachine, System.step] at h <;> first
    | (obtain ⟨w, hw, rfl⟩ := Option.map_eq_some_iff.mp h
       exact ⟨hw, rfl⟩)
    | cases h

theorem step_task {s s' : System} {a : Answers}
    (h : systemMachine.step s (.task a) = some s') :
    ∃ reply, machine.step s.wifi (.task reply) = some s'.wifi ∧
      s'.log = if s.wifi.pc.atRequest then (s.request a).2.log else s.log := by
  simp only [systemMachine, System.step] at h
  by_cases hat : s.wifi.pc.atRequest
  · rw [if_pos hat] at h
    obtain ⟨w, hw, rfl⟩ := Option.map_eq_some_iff.mp h
    exact ⟨(s.request a).1, hw, by simp [hat]⟩
  · rw [if_neg hat] at h
    obtain ⟨w, hw, rfl⟩ := Option.map_eq_some_iff.mp h
    exact ⟨default, hw, by simp [hat]⟩

theorem step_wifi {s s' : System} {l : Label} (h : systemMachine.step s l = some s') :
    ∃ action, machine.step s.wifi action = some s'.wifi := by
  cases l with
  | event action => exact ⟨action, (step_event h).1⟩
  | task a =>
      obtain ⟨reply, hw, _⟩ := step_task h
      exact ⟨.task reply, hw⟩

/-- Every run of the system is a run of the wifi service. -/
theorem run_wifi {s t : System} {ls : List Label} (h : systemMachine.run s ls = some t) :
    ∃ actions, machine.run s.wifi actions = some t.wifi :=
  Machine.run_project (fun _ _ _ => step_wifi) h

/-! ## Kiss-of-death -/

/-- A kiss-of-death leaves the server's entry as it was. -/
theorem kod_keeps_entry {server : Server} {interval : UInt32} {a : Answers} {w : World}
    (h : (uisoSntpRequest (some server) (some interval) a w).rcode = .serverReplyKod) :
    (uisoSntpRequest (some server) (some interval) a w).server = some server := by
  cases uisoSntpRequest_ends server interval a w with
  | refused _ _ _ hentry => exact hentry
  | rejected d _ rcode hreply hcode =>
      rw [hcode] at h
      subst h
      unfold replyTimeStamp at hreply
      repeat' split at hreply
      all_goals cases hreply
  | notSet _ _ _ _ _ _ hcode => simp [hcode] at h
  | halfSet _ _ _ _ _ _ hcode => rcases hcode with hcode | hcode <;> simp [hcode] at h
  | synchronised _ _ _ _ _ _ _ hcode => simp [hcode] at h

/-- A request may go to a server that has not refused service. -/
def Allowed (before : List Event) : Event → Prop
  | .sent server => .kod server ∉ before
  | .kod _ => True

instance (before : List Event) : ∀ e, Decidable (Allowed before e)
  | .sent server => inferInstanceAs (Decidable (.kod server ∉ before))
  | .kod _ => inferInstanceAs (Decidable True)

/-- No request is sent to a server after its kiss-of-death. -/
def KodFinal (s : System) : Prop := Trace.Each Allowed s.log

instance (s : System) : Decidable (KodFinal s) :=
  inferInstanceAs (Decidable (Trace.Each Allowed s.log))

/-- A request made after a kiss-of-death is not sent: name resolution, `sl_Socket` or
`sl_Bind` fails. -/
def Silenced (s : System) (l : Label) : Prop :=
  ∀ a, l = .task a → s.wifi.pc.atRequest → .kod selectServerFromList ∈ s.log → ¬a.Sends

theorem kodFinal_request {s : System} {a : Answers} (h : Trace.Each Allowed s.log) :
    Trace.Each Allowed (s.request a).2.log ↔ (.kod selectServerFromList ∈ s.log → ¬a.Sends) := by
  -- the kiss-of-death itself is always allowed
  have hkod : ∀ log code, Trace.Each Allowed
      (log ++ if code = ReturnCode.serverReplyKod then [.kod selectServerFromList] else []) ↔
        Trace.Each Allowed log := by
    intro log code
    split
    · rw [Trace.each_concat]
      simp [Allowed]
    · simp
  simp only [System.request]
  rw [hkod, uisoSntpRequest_sends]
  by_cases hsends : a.Sends
  · rw [if_pos (decide_eq_true hsends), Trace.each_concat]
    simp [h, Allowed, hsends]
  · simp [h, hsends]

theorem kodFinal_step {s s' : System} {l : Label} (h : KodFinal s)
    (hstep : systemMachine.step s l = some s') : KodFinal s' ↔ Silenced s l := by
  unfold KodFinal at *
  cases l with
  | event action =>
      rw [(step_event hstep).2]
      exact iff_of_true h (fun a ha => by cases ha)
  | task a =>
      obtain ⟨_, _, hlog⟩ := step_task hstep
      by_cases hat : s.wifi.pc.atRequest
      · rw [hlog, if_pos hat, kodFinal_request h]
        constructor
        · rintro hkod b ⟨⟩ _
          exact hkod
        · intro hsilenced
          exact hsilenced a rfl hat
      · rw [hlog, if_neg hat]
        exact iff_of_true h (fun _ _ hat' => absurd hat' hat)

/-- In a run of the service a kiss-of-death is final precisely if every later request
fails before it is sent. -/
theorem kod_final_iff (rtc : UInt32) (ls : List Label) :
    systemMachine.Always KodFinal (.init rtc) ls ↔
      systemMachine.Guarded Silenced (.init rtc) ls :=
  Machine.always_iff_guarded (J := fun _ => True) (fun _ _ _ _ _ => trivial)
    (fun _ _ _ _ hfinal hstep => kodFinal_step hfinal hstep) trivial trivial

/-- A server refuses service to the request sent at 0. -/
def kodAnswers : Answers := answersWith 0 (serverReply 0 0x24 0 2208988800 3908988810)

/-- The device joins the network, its first request is answered with a kiss-of-death, and
16 s later the timer expires again. -/
def kodRun : List Label :=
  -- up to the first wait, then the pass over the connect bit
  List.replicate 2 (.task kodAnswers) ++ [.event (.wlan (some .connect))] ++
    List.replicate 5 (.task kodAnswers) ++
    -- the pass over the sync-timer bit, and the wait
    [.event .timerExpiry] ++ List.replicate 8 (.task kodAnswers) ++
    [.event .timerExpiry] ++ List.replicate 6 (.task kodAnswers)

/-- The server that refused service is asked again. -/
theorem kod_server_asked_again :
    ¬∀ (rtc : UInt32) (ls : List Label), systemMachine.Always KodFinal (.init rtc) ls := by
  intro h
  have hrun := h 0 kodRun
  revert hrun
  decide +kernel

end Uiso.Wifi
