/-
  Lwm2m/Dispatch.lean --- the loop of the LWM2M task
  (`lwm2m_client_task_runner` of src/lwm2m/lightclient/uiso_lightclient.c).

  One pass of the loop is one step.  Its label (`Pass`) carries what is decided
  outside: the bits other tasks have set, the connects and closes the LWM2M core makes
  in each of its functions, what the network read and `lwm2m_step` return, and whether
  the monitor reports the socket as readable.

  The notification of a received message is set by `wait_for_rx` at the end of a pass
  and handled in the next one.  It says that the socket is readable, not that there is
  a session; a pass is `Covered` when there is one all the same.
-/
import Uiso.Lwm2m.SessionList
import Uiso.Rtos.Kernel

set_option autoImplicit false

namespace Uiso.Lwm2m

open Uiso.Foundation
open Uiso.Rtos

/-! ## Notification bits -/

/-- `lwm2m_notify_registration` -/
def lwm2mNotifyRegistration : BitVec 32 := 1#32 <<< 0
/-- `lwm2m_notify_timestamp` -/
def lwm2mNotifyTimestamp : BitVec 32 := 1#32 <<< 1
/-- `lwm2m_notify_temperature` -/
def lwm2mNotifyTemperature : BitVec 32 := 1#32 <<< 2
/-- `lwm2m_notify_accelerometer` -/
def lwm2mNotifyAccelerometer : BitVec 32 := 1#32 <<< 3
/-- `lwm2m_notify_message_reception` -/
def lwm2mNotifyMessageReception : BitVec 32 := 1#32 <<< 4

/-- `MAX_PACKET_SIZE` -/
def maxPacketSize : Int := 2048

/-! ## The loop -/

/-- What is decided outside in one pass of the loop. -/
structure Pass where
  /-- the bits other tasks have set since the last pass -/
  bits : BitVec 32
  /-- the calls the core makes in `lwm2m_update_registration` -/
  updateRegistration : List SessionOp
  /-- those in `lwm2m_resource_value_changed` for the time, the temperature and the three
  axes of the accelerometer -/
  timestampChanged : List SessionOp
  temperatureChanged : List SessionOp
  accelerometerChanged : List SessionOp
  /-- the result of `uiso_network_read` -/
  numBytes : Int
  /-- the calls in `lwm2m_handle_packet` -/
  handlePacket : List SessionOp
  /-- the calls in `lwm2m_step`, and its result -/
  stepCalls : List SessionOp
  stepResult : Int
  /-- the result of `enqueue_select_rx` -/
  rxResult : Int
  deriving DecidableEq, Repr

/-- The state of the task between two passes.  `handled` is not part of the source: it
records `data.connList` at every reception the loop has handled. -/
structure LoopState where
  sessions : SessionState
  notification : Notification
  running : Bool
  handled : List (Option Nat)

/-- The calls of the core.  The loops over the list are bounded by its length; they return
within that bound (`sessionStep_spec`). -/
def coreCalls : Machine SessionState SessionOp :=
  ⟨fun s op => sessionStep (s.opened.length + 1) s op⟩

/-- The calls made in the branches before that of a received message. -/
def Pass.earlyCalls (value : BitVec 32) (p : Pass) : List SessionOp :=
  (if test value lwm2mNotifyRegistration then p.updateRegistration else []) ++
  (if test value lwm2mNotifyTimestamp then p.timestampChanged else []) ++
  (if test value lwm2mNotifyTemperature then p.temperatureChanged else []) ++
  (if test value lwm2mNotifyAccelerometer then p.accelerometerChanged else [])

/-- The branch of a received message: `data.connList->ctx` is read from, and the packet is
handed to the core.  Nothing is said about the loop after a NULL pointer was followed. -/
def Pass.handleReception (p : Pass) (s : LoopState) : Option LoopState :=
  match s.sessions.mem.connList with
  | none => some { s with handled := s.handled ++ [none], running := false }
  | some connP =>
      let packet := if p.numBytes ≥ 0 ∧ p.numBytes < maxPacketSize then p.handlePacket else []
      (coreCalls.run s.sessions packet).map fun sessions =>
        { s with sessions := sessions, handled := s.handled ++ [some connP] }

/-- The branches for the bits of a notification. -/
def Pass.dispatch (p : Pass) (value : BitVec 32) (s : LoopState) : Option LoopState :=
  match coreCalls.run s.sessions (p.earlyCalls value) with
  | none => none
  | some sessions =>
      if test value lwm2mNotifyMessageReception then
        p.handleReception { s with sessions := sessions }
      else some { s with sessions := sessions }

/-- `lwm2m_step`, and `wait_for_rx` when it succeeds. -/
def Pass.stepAndWait (p : Pass) (s : LoopState) : Option LoopState :=
  if s.running then
    (coreCalls.run s.sessions p.stepCalls).map fun sessions =>
      if p.stepResult ≠ 0 then { s with sessions := sessions, running := false }
      else if p.rxResult = 0 then
        { s with
          sessions := sessions
          notification := s.notification.setBits lwm2mNotifyMessageReception }
      else { s with sessions := sessions }
  else some s

/-- The notification a pass finds: other tasks set their bits, which do not include that of
a received message. -/
def LoopState.notified (s : LoopState) (p : Pass) : Notification :=
  if p.bits = 0#32 then s.notification else s.notification.setBits p.bits

/-- One pass. -/
def loopStep (s : LoopState) (p : Pass) : Option LoopState :=
  if s.running = true ∧ test p.bits lwm2mNotifyMessageReception = false then
    let n := s.notified p
    if n.received then
      (p.dispatch n.value { s with notification := n.leaveWait (BitVec.allOnes 32) }).bind
        p.stepAndWait
    else p.stepAndWait { s with notification := n }
  else none

/-- The loop of the LWM2M task. -/
def clientLoop : Machine LoopState Pass := ⟨loopStep⟩

/-- The loop before its first pass. -/
def loopStart : LoopState := ⟨noSessions, .none, true, []⟩

/-- Every reception handled so far has found a session. -/
def FoundSessions (s : LoopState) : Prop := none ∉ s.handled

instance (s : LoopState) : Decidable (FoundSessions s) := inferInstanceAs (Decidable (¬_))

/-! ## The sessions after the calls of the core -/

/-- The open sessions after a list of calls. -/
def openAfter (opened : List Nat) (calls : List SessionOp) : List Nat :=
  calls.foldl (fun opened op =>
    match op with
    | .connect call => opened ++ call.result.toList
    | .close session => opened.erase session) opened

theorem coreCalls_step {s s' : SessionState} {op : SessionOp} (h : s.Ok)
    (hstep : coreCalls.step s op = some s') : s'.Ok ∧ s'.opened = openAfter s.opened [op] := by
  have henabled : op.Enabled s := enabled_of_step hstep
  obtain ⟨t, ht, hok, _⟩ := sessionStep_spec h (Nat.lt_succ_self s.opened.length) henabled
  obtain rfl : t = s' := Option.some.inj (ht.symm.trans hstep)
  refine ⟨hok, ?_⟩
  cases op with
  | connect call =>
      obtain ⟨mem, hconnect, _⟩ := SessionMemory.lwm2mConnectServer_spec h henabled
        (Nat.lt_succ_self s.opened.length)
      have hfresh : call.Fresh s.mem := henabled
      simp only [sessions, sessionStep, hfresh, if_true, hconnect] at ht
      rw [← Option.some.inj ht]
      rfl
  | close session =>
      obtain ⟨mem, hclose, _⟩ := SessionMemory.lwm2mCloseConnection_spec h henabled
        (Nat.lt_succ_self s.opened.length)
      have hmem : session ∈ s.opened := henabled
      simp only [sessions, sessionStep, hmem, if_true, hclose] at ht
      rw [← Option.some.inj ht]
      rfl

theorem coreCalls_run {s s' : SessionState} {calls : List SessionOp} (h : s.Ok)
    (hrun : coreCalls.run s calls = some s') :
    s'.Ok ∧ s'.opened = openAfter s.opened calls := by
  induction calls generalizing s with
  | nil =>
      obtain rfl : s = s' := by simpa using hrun
      exact ⟨h, rfl⟩
  | cons op calls ih =>
      obtain ⟨t, hstep, hrest⟩ := Machine.run_uncons hrun
      obtain ⟨hok, hopened⟩ := coreCalls_step h hstep
      obtain ⟨hok', hopened'⟩ := ih hok hrest
      refine ⟨hok', ?_⟩
      rw [hopened', hopened]
      rfl

/-- The list is NULL precisely if no session is open. -/
theorem SessionState.Ok.connList_eq_none_iff {s : SessionState} (h : s.Ok) :
    s.mem.connList = none ↔ s.opened = [] := by
  have hchain := h.chain
  cases hopened : s.opened with
  | nil =>
      rw [hopened] at hchain
      exact iff_of_true hchain rfl
  | cons a rest =>
      rw [hopened] at hchain
      refine iff_of_false ?_ (List.cons_ne_nil a rest)
      intro hnone
      exact Option.some_ne_none a (hchain.1.symm.trans hnone)

/-! ## One pass -/

/-- What every pass keeps. -/
structure LoopJ (s : LoopState) : Prop where
  ok : s.sessions.Ok
  pending : s.notification.received = false → s.notification.value = 0#32

theorem loopJ_start : LoopJ loopStart :=
  ⟨SessionMemory.represents_empty, fun _ => rfl⟩

/-- `lwm2m_step` and `wait_for_rx` handle no reception. -/
theorem stepAndWait_spec {p : Pass} {s s' : LoopState} (h : LoopJ s)
    (hstep : p.stepAndWait s = some s') : LoopJ s' ∧ s'.handled = s.handled := by
  unfold Pass.stepAndWait at hstep
  split at hstep
  · obtain ⟨sessions, hrun, rfl⟩ := Option.map_eq_some_iff.mp hstep
    obtain ⟨hok, _⟩ := coreCalls_run h.ok hrun
    split
    · exact ⟨⟨hok, h.pending⟩, rfl⟩
    · split
      · exact ⟨⟨hok, fun hnone => by cases hnone⟩, rfl⟩
      · exact ⟨⟨hok, h.pending⟩, rfl⟩
  · obtain rfl := Option.some.inj hstep
    exact ⟨h, rfl⟩

theorem foundSessions_concat {s s' : LoopState} {connP : Option Nat}
    (h : s'.handled = s.handled ++ [connP]) :
    FoundSessions s' ↔ FoundSessions s ∧ connP ≠ none := by
  unfold FoundSessions
  rw [h, List.mem_append, List.mem_singleton, not_or]
  exact and_congr_right fun _ => ne_comm

/-- The branch of a received message finds a session precisely if one is open. -/
theorem handleReception_spec {p : Pass} {s s' : LoopState} (h : LoopJ s)
    (hstep : p.handleReception s = some s') :
    LoopJ s' ∧ (FoundSessions s' ↔ FoundSessions s ∧ s.sessions.opened ≠ []) := by
  have hnull := h.ok.connList_eq_none_iff
  unfold Pass.handleReception at hstep
  cases hlist : s.sessions.mem.connList with
  | none =>
      rw [hlist] at hstep
      obtain rfl := Option.some.inj hstep
      have hopened := hnull.mp hlist
      refine ⟨⟨h.ok, h.pending⟩, (foundSessions_concat rfl).trans ?_⟩
      exact and_congr_right fun _ => iff_of_false (fun hne => hne rfl) (fun hne => hne hopened)
  | some connP =>
      rw [hlist] at hstep
      obtain ⟨after, hrun, rfl⟩ := Option.map_eq_some_iff.mp hstep
      have hopened : s.sessions.opened ≠ [] := by
        intro hnil
        exact Option.some_ne_none connP (hlist.symm.trans (hnull.mpr hnil))
      refine ⟨⟨(coreCalls_run h.ok hrun).1, h.pending⟩, (foundSessions_concat rfl).trans ?_⟩
      exact and_congr_right fun _ => iff_of_true (Option.some_ne_none connP) hopened

/-- The dispatch of a notification handles a reception when its bit is set, and finds the
sessions that are open after the calls made before. -/
theorem dispatch_spec {p : Pass} {value : BitVec 32} {s s' : LoopState} (h : LoopJ s)
    (hstep : p.dispatch value s = some s') :
    LoopJ s' ∧ (FoundSessions s' ↔ FoundSessions s ∧
      (test value lwm2mNotifyMessageReception = true →
        openAfter s.sessions.opened (p.earlyCalls value) ≠ [])) := by
  unfold Pass.dispatch at hstep
  cases hearly : coreCalls.run s.sessions (p.earlyCalls value) with
  | none =>
      rw [hearly] at hstep
      cases hstep
  | some early =>
      rw [hearly] at hstep
      obtain ⟨hok, hopened⟩ := coreCalls_run h.ok hearly
      have hJ : LoopJ { s with sessions := early } := ⟨hok, h.pending⟩
      simp only at hstep
      split at hstep
      · rename_i hbit
        obtain ⟨hJ', hfound⟩ := handleReception_spec hJ hstep
        rw [hopened] at hfound
        refine ⟨hJ', hfound.trans (and_congr_right fun _ => ?_)⟩
        exact ⟨fun hne _ => hne, fun hne => hne hbit⟩
      · rename_i hbit
        obtain rfl := Option.some.inj hstep
        exact ⟨hJ, ⟨fun hfound => ⟨hfound, fun hset => absurd hset hbit⟩,
          fun hfound => hfound.1⟩⟩

/-- The value a pass finds has the bits of both. -/
theorem LoopState.notified_value (s : LoopState) (p : Pass) :
    (s.notified p).value = s.notification.value ||| p.bits := by
  unfold LoopState.notified
  split
  · rename_i hzero
    simp [hzero]
  · rfl

/-- Where nothing was received, no bit was set. -/
theorem LoopState.notified_eq_self {s : LoopState} {p : Pass}
    (h : (s.notified p).received = false) : s.notified p = s.notification := by
  unfold LoopState.notified at h ⊢
  split
  · rfl
  · rename_i hne
    rw [if_neg hne] at h
    cases h

/-- A pass is covered: if a reception is pending, a session is open once the core has made
the calls of the branches before it. -/
def Covered (s : LoopState) (p : Pass) : Prop :=
  test s.notification.value lwm2mNotifyMessageReception = true →
    openAfter s.sessions.opened (p.earlyCalls (s.notification.value ||| p.bits)) ≠ []

/-- A pass keeps the invariant, and finds a session for its reception precisely if it is
covered. -/
theorem loopStep_spec {p : Pass} {s s' : LoopState} (h : LoopJ s)
    (hstep : clientLoop.step s p = some s') :
    LoopJ s' ∧ (FoundSessions s' ↔ FoundSessions s ∧ Covered s p) := by
  simp only [clientLoop, loopStep] at hstep
  split at hstep
  · rename_i henabled
    have hreception : test (s.notified p).value lwm2mNotifyMessageReception =
        test s.notification.value lwm2mNotifyMessageReception := by
      rw [s.notified_value, test_or, henabled.2, Bool.or_false]
    split at hstep
    · obtain ⟨t, hdispatch, hwait⟩ := Option.bind_eq_some_iff.mp hstep
      have hleft : LoopJ { s with
          notification := (s.notified p).leaveWait (BitVec.allOnes 32) } :=
        ⟨h.ok, fun _ => by rw [Notification.leaveWait_allOnes]⟩
      obtain ⟨hJ, hfound⟩ := dispatch_spec hleft hdispatch
      obtain ⟨hJ', hhandled⟩ := stepAndWait_spec hJ hwait
      refine ⟨hJ', ?_⟩
      rw [hreception, s.notified_value] at hfound
      unfold FoundSessions
      rw [hhandled]
      exact hfound
    · rename_i hnone
      have hnone' : (s.notified p).received = false := by simpa using hnone
      have hsame := LoopState.notified_eq_self hnone'
      rw [hsame] at hstep hnone'
      obtain ⟨hJ', hhandled⟩ := stepAndWait_spec h hstep
      refine ⟨hJ', ?_⟩
      unfold FoundSessions Covered
      rw [hhandled, h.pending hnone', test_zero]
      exact (and_iff_left nofun).symm
  · cases hstep

/-- Along any run of the loop, every reception it handles finds `data.connList` not NULL
precisely if every pass is covered: whenever `wait_for_rx` has reported the socket readable,
a session that a connect returned and no close was given is there when the next pass comes
to the reception. -/
theorem reception_finds_session_iff (passes : List Pass) :
    clientLoop.Always FoundSessions loopStart passes ↔
      clientLoop.Guarded Covered loopStart passes := by
  apply Machine.always_iff_guarded (fun _ _ _ hJ hstep => (loopStep_spec hJ hstep).1) ?_
    loopJ_start List.not_mem_nil
  intro s p s' hJ hfound hstep
  rw [(loopStep_spec hJ hstep).2]
  exact and_iff_right hfound

/-- A pass in which the core makes some calls in `lwm2m_step` and the monitor then reports
the socket readable. -/
def passWith (stepCalls : List SessionOp) : Pass where
  bits := 0#32
  updateRegistration := []
  timestampChanged := []
  temperatureChanged := []
  accelerometerChanged := []
  numBytes := 0
  handlePacket := []
  stepCalls := stepCalls
  stepResult := 0
  rxResult := 0

/-- The core opens a session and closes it again; the socket stays open, the monitor reports
it readable, and the next pass follows a NULL pointer. -/
theorem reception_after_close_finds_null :
    ¬ ∀ passes : List Pass, clientLoop.Always FoundSessions loopStart passes := by
  intro h
  have halways := h [passWith [.connect (goodCall 1), .close 1], passWith []]
  exact absurd halways (by decide)

end Uiso.Lwm2m
