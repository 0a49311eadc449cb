/-
  Monitor/Wakeup.lean --- when a reported socket wakes its client.

  A client that has registered its deadline is reported when `sl_Select` finds
  its socket readable and the second pass gives the signal.  From then on the
  signal has to stay full until the client itself takes it.  Three steps can
  empty it, or keep the client from getting to it: a drain, also the client's
  own, since it drains after it has registered; another client's wait on the same
  context; and the null handle of the write part of the second pass.  In a run
  without those steps every reported client returns 0.
-/
import Uiso.Monitor.Task
import Mathlib.Data.Fintype.Basic

set_option autoImplicit false

namespace Uiso.Monitor

open Uiso.Foundation
open Uiso.Network
open Uiso.Rtos

variable {ι : Type}

/-! ## The property -/

/-- A reported client returns 0: it does not return anything else, and in its
wait the signal is there to be taken. -/
structure WakesUp (s : State ι) : Prop where
  returns : ∀ c q result, s.reported c = true → s.client c = .returned q result → result = 0
  waits : ∀ c q, s.reported c = true → s.client c = .wait q →
    s.signal q.dir q.id = true
  runs : ∀ c q, s.reported c = true → (s.client c).pending = some q → s.halted = false

/-- The client has been reported on context `id` and has not returned. -/
def Owed (s : State ι) (c : ι) (id : WifiSocketId) : Prop :=
  s.reported c = true ∧ ∃ q ∈ (s.client c).pending, q.dir = .rx ∧ q.id = id

instance (s : State ι) (c : ι) (id : WifiSocketId) : Decidable (Owed s c id) :=
  inferInstanceAs (Decidable (_ ∧ ∃ q ∈ (s.client c).pending, q.dir = .rx ∧ q.id = id))

/-- The next step of client `c` takes no signal that a reported client has yet
to take, unless it is the one. -/
def LeavesSignals (s : State ι) (c : ι) : ClientPc → Prop
  | .drain q _ => q.dir = .rx → ∀ c', ¬Owed s c' q.id
  | .wait q => q.dir = .rx → ∀ c', Owed s c' q.id → c' = c
  | _ => True

/-- The next step of the task does not stop the system while a reported client
is in its call. -/
def LeavesRunning (sd : WifiSocketId → Int) (s : State ι) : TaskPc → Prop
  | .txPass ready (id :: _) =>
      0 < sd id → fdIsSet (sd id) (ready.set .tx) = true → ∀ c id', ¬Owed s c id'
  | _ => True

/-- The step keeps no reported client from its signal. -/
def Undisturbed (sd : WifiSocketId → Int) (s : State ι) : Action ι → Prop
  | .client c _ => LeavesSignals s c (s.client c)
  | .task _ => LeavesRunning sd s s.task
  | _ => True

section Decidable

variable [DecidableEq ι] [Fintype ι] (sd : WifiSocketId → Int) (s : State ι)

instance (c : ι) : ∀ pc, Decidable (LeavesSignals s c pc)
  | .drain q _ => inferInstanceAs (Decidable (_ → ∀ c', ¬Owed s c' q.id))
  | .wait q => inferInstanceAs (Decidable (_ → ∀ c', Owed s c' q.id → c' = c))
  | .idle | .lock _ | .store _ | .unlock _ _ | .notify _ _ | .returned _ _ =>
      inferInstanceAs (Decidable True)

instance : ∀ task, Decidable (LeavesRunning sd s task)
  | .txPass _ (_ :: _) => inferInstanceAs (Decidable (_ → _ → ∀ c id', ¬Owed s c id'))
  | .txPass _ [] | .suspended | .start | .lock _ | .scan _ _ _ | .unlock _ | .select _
  | .relock _ | .rxPass _ _ | .unlockAgain | .waiting => inferInstanceAs (Decidable True)

instance : ∀ a, Decidable (Undisturbed sd s a)
  | .client c _ => inferInstanceAs (Decidable (LeavesSignals s c (s.client c)))
  | .task _ => inferInstanceAs (Decidable (LeavesRunning sd s s.task))
  | .call _ _ | .timeout _ | .resume => inferInstanceAs (Decidable True)

end Decidable

/-! ## The invariant -/

/-- The signal of a reported client is full until it has returned 0. -/
def Delivered (s : State ι) (c : ι) : Prop :=
  (∃ q, (s.client c).pending = some q ∧ q.dir = .rx ∧ s.signal .rx q.id = true ∧
      s.halted = false) ∨
    ∃ q, s.client c = .returned q 0

def AllDelivered (s : State ι) : Prop := ∀ c, s.reported c = true → Delivered s c

theorem AllDelivered.wakesUp {s : State ι} (h : AllDelivered s) : WakesUp s := by
  refine ⟨?_, ?_, ?_⟩
  · intro c q result hreported hpc
    rcases h c hreported with ⟨q', hpending, -⟩ | ⟨q', hreturned⟩
    · simp [hpc, ClientPc.pending] at hpending
    · rw [hpc] at hreturned
      exact (ClientPc.returned.inj hreturned).2
  · intro c q hreported hpc
    rcases h c hreported with ⟨q', hpending, hdir, hsignal, -⟩ | ⟨q', hreturned⟩
    · obtain rfl : q = q' := by simpa [hpc, ClientPc.pending] using hpending
      rw [hdir]
      exact hsignal
    · rw [hpc] at hreturned
      cases hreturned
  · intro c q hreported hpending
    rcases h c hreported with ⟨_, _, _, _, halive⟩ | ⟨q', hreturned⟩
    · exact halive
    · simp [hreturned, ClientPc.pending] at hpending

/-- A client that is not in the step stays delivered when its signal stays full
and the system keeps running. -/
theorem Delivered.frame {s s' : State ι} {c : ι} (h : Delivered s c)
    (hclient : s'.client c = s.client c)
    (hsignal : ∀ q ∈ (s.client c).pending, q.dir = .rx → s.signal .rx q.id = true →
      s'.signal .rx q.id = true)
    (hhalted : (∃ q ∈ (s.client c).pending, q.dir = .rx) → s.halted = false →
      s'.halted = false) : Delivered s' c := by
  rcases h with ⟨q, hpending, hdir, hfull, halive⟩ | ⟨q, hreturned⟩
  · refine .inl ⟨q, hclient ▸ hpending, hdir, hsignal q hpending hdir hfull, ?_⟩
    exact hhalted ⟨q, hpending, hdir⟩ halive
  · exact .inr ⟨q, hclient.trans hreturned⟩

/-- A step that touches none of what the invariant reads. -/
theorem AllDelivered.frame {s s' : State ι} (h : AllDelivered s)
    (hclient : s'.client = s.client) (hsignal : s'.signal = s.signal)
    (hhalted : s'.halted = s.halted) (hreported : s'.reported = s.reported) :
    AllDelivered s' := by
  intro c hc
  rw [hreported] at hc
  refine (h c hc).frame (by rw [hclient]) ?_ ?_
  · intro q _ _ hfull
    rw [hsignal]
    exact hfull
  · intro _ halive
    rw [hhalted]
    exact halive

/-! ## Steps of the task -/

section Task

variable {sd : WifiSocketId → Int} {s s' : State ι} {ready : Ready} {id : WifiSocketId}

/-- The second pass fills signals, and reports a client when its signal is full. -/
theorem AllDelivered.passRx (h : AllDelivered s) (hrunning : s.halted = false) :
    AllDelivered (passRx sd ready id s) := by
  by_cases hset : 0 < sd id ∧ fdIsSet (sd id) (ready.set .rx) = true
  · simp only [Monitor.passRx, if_pos hset]
    have hfilled : ∀ id', s.signal .rx id' = true →
        (s.setSignal .rx id true).signal .rx id' = true := by
      intro id' hfull
      by_cases hid : id' = id
      · subst hid
        exact s.setSignal_same _ _ _
      · rw [s.setSignal_other _ (fun hsame => hid hsame.2)]
        exact hfull
    intro c hc
    simp only [report, Bool.or_eq_true] at hc
    rcases hc with hbefore | hnew
    · exact (h c hbefore).frame rfl (fun q _ _ hfull => hfilled q.id hfull) (fun _ h => h)
    · cases hpending : (s.client c).pending with
      | none => simp [hpending] at hnew
      | some q =>
          obtain ⟨⟨hdir, hid⟩, -⟩ : (q.dir = .rx ∧ q.id = id) ∧ s.announced c = true := by
            simpa [hpending] using hnew
          subst hid
          have hfull := (s.setDeadline .rx q.id 0).setSignal_same .rx q.id true
          exact .inl ⟨q, hpending, hdir, hfull, hrunning⟩
  · simp only [Monitor.passRx, if_neg hset]
    exact h

/-- The null handle of the write part, when no reported client is left waiting. -/
theorem AllDelivered.passTx (h : AllDelivered s)
    (hnone : 0 < sd id → fdIsSet (sd id) (ready.set .tx) = true → ∀ c id', ¬Owed s c id') :
    AllDelivered (passTx sd ready id s) := by
  by_cases hset : 0 < sd id ∧ fdIsSet (sd id) (ready.set .tx) = true
  · simp only [Monitor.passTx, if_pos hset]
    intro c hc
    refine (h c hc).frame rfl (fun _ _ _ hfull => hfull) ?_
    rintro ⟨q, hpending, hdir⟩ _
    exact absurd ⟨hc, q, hpending, hdir, rfl⟩ (hnone hset.1 hset.2 c q.id)
  · simp only [Monitor.passTx, if_neg hset]
    exact h

/-- Every step of the task. -/
theorem AllDelivered.of_taskStep {env : Env} (h : AllDelivered s) (hrunning : s.halted = false)
    (hguard : Undisturbed sd s (.task env)) (hstep : taskStep sd env s = some s') :
    AllDelivered s' := by
  cases taskStep_move sd hstep with
  | @scan now id rest sel htask =>
      obtain ⟨deadline, hframe⟩ := scanContext_frame sd now id sel s
      rw [hframe]
      exact h.frame rfl rfl rfl rfl
  | rxPass htask => exact (h.passRx hrunning).frame rfl rfl rfl rfl
  | txPass htask =>
      simp only [Undisturbed, LeavesRunning, htask] at hguard
      exact (h.passTx hguard).frame rfl rfl rfl rfl
  | start _ | lock _ _ | scanned _ | collected _ _ | sleep _ _ | select _ _ | selectNone _ _
  | relock _ _ | rxPassed _ | txPassed _ | unlockAgain _ | wake _ _ =>
      exact h.frame rfl rfl rfl rfl

end Task

/-! ## Steps of the clients -/

section Clients

variable {s t s' : State ι} {c : ι} {pc : ClientPc}

/-- Where a client has registered nothing and not returned 0, it is not
reported. -/
theorem AllDelivered.not_reported (h : AllDelivered s) (hpending : (s.client c).pending = none)
    (hreturned : ∀ q, s.client c ≠ .returned q 0) : s.reported c ≠ true := by
  intro hreported
  rcases h c hreported with ⟨q, hq, -⟩ | ⟨q, hq⟩
  · rw [hpending] at hq
    cases hq
  · exact hreturned q hq

/-- Emptying a signal leaves the signals of other contexts full. -/
theorem setSignal_keeps {dir : Dir} {id id' : WifiSocketId} {value : Bool}
    (hfull : s.signal .rx id' = true) (h : ¬(dir = .rx ∧ id = id')) :
    (s.setSignal dir id value).signal .rx id' = true := by
  rw [s.setSignal_other value (fun hsame => h ⟨hsame.1.symm, hsame.2.symm⟩)]
  exact hfull

variable [DecidableEq ι]

/-- Moving one client, after an update `t` that leaves the clients and the
reports alone: the moved client has to stay delivered, and the signals of the
others have to stay full. -/
theorem AllDelivered.moveTo (h : AllDelivered s)
    (hclient : t.client = s.client) (hreported : t.reported = s.reported)
    (hhalted : t.halted = s.halted)
    (hself : s.reported c = true → Delivered (t.moveTo c pc) c)
    (hothers : ∀ c' q, c' ≠ c → s.reported c' = true → (s.client c').pending = some q →
      q.dir = .rx → s.signal .rx q.id = true → t.signal .rx q.id = true) :
    AllDelivered (t.moveTo c pc) := by
  intro c' hc'
  have hbefore : s.reported c' = true := by
    rw [← hreported]
    exact hc'
  by_cases hc : c' = c
  · subst hc
    exact hself hbefore
  · refine (h c' hbefore).frame ?_ ?_ ?_
    · simp [State.moveTo, hclient, hc]
    · intro q hpending hdir hfull
      exact hothers c' q hc hbefore hpending hdir hfull
    · intro _ halive
      exact hhalted.trans halive

/-- A reported client that moves on without touching its signal. -/
theorem AllDelivered.advance (h : AllDelivered s)
    (hsignal : t.signal = s.signal) (hhalted : t.halted = s.halted)
    {q : Wait} (hbefore : (s.client c).pending = some q) (hafter : pc.pending = some q)
    (hreported : s.reported c = true) : Delivered (t.moveTo c pc) c := by
  rcases h c hreported with ⟨q', hpending, hdir, hfull, halive⟩ | ⟨q', hreturned⟩
  · obtain rfl : q = q' := by simpa [hbefore] using hpending
    refine .inl ⟨q, by simpa [State.moveTo] using hafter, hdir, ?_, hhalted.trans halive⟩
    rw [show (t.moveTo c pc).signal = t.signal from rfl, hsignal]
    exact hfull
  · simp [hreturned, ClientPc.pending] at hbefore

/-- Every step of a client. -/
theorem AllDelivered.of_clientStep {sd : WifiSocketId → Int} {now : UInt32} (h : AllDelivered s)
    (hguard : Undisturbed sd s (.client c now)) (hstep : clientStep c now s = some s') :
    AllDelivered s' := by
  cases clientStep_move hstep with
  | lock hpc hmutex =>
      have hnot := h.not_reported (c := c) (by rw [hpc]; rfl) (by simp [hpc])
      exact h.moveTo rfl rfl rfl (fun hr => absurd hr hnot) (fun _ _ _ _ _ _ hfull => hfull)
  | store hpc =>
      have hnot := h.not_reported (c := c) (by rw [hpc]; rfl) (by simp [hpc])
      exact h.moveTo rfl rfl rfl (fun hr => absurd hr hnot) (fun _ _ _ _ _ _ hfull => hfull)
  | unlock hpc =>
      exact h.moveTo rfl rfl rfl (h.advance rfl rfl (by rw [hpc]; rfl) rfl)
        (fun _ _ _ _ _ _ hfull => hfull)
  | @drain q deadline hpc =>
      simp only [Undisturbed, LeavesSignals, hpc] at hguard
      refine h.moveTo rfl rfl rfl ?_ ?_
      · -- its own signal: were it reported, the drain would discard the report
        intro hreported
        rcases h c hreported with ⟨q', hpending, hdir, -⟩ | ⟨q', hreturned⟩
        · obtain rfl : q = q' := by simpa [hpc, ClientPc.pending] using hpending
          exact absurd ⟨hreported, q, hpending, hdir, rfl⟩ (hguard hdir c)
        · rw [hpc] at hreturned
          cases hreturned
      · intro c' q' _ hreported hpending hdir hfull
        refine setSignal_keeps hfull ?_
        rintro ⟨hrx, hid⟩
        exact hguard hrx c' ⟨hreported, q', hpending, hdir, hid.symm⟩
  | notify hpc =>
      exact h.moveTo rfl rfl rfl (h.advance rfl rfl (by rw [hpc]; rfl) rfl)
        (fun _ _ _ _ _ _ hfull => hfull)
  | @take q hpc hsignal =>
      simp only [Undisturbed, LeavesSignals, hpc] at hguard
      refine h.moveTo rfl rfl rfl ?_ ?_
      · intro _
        exact .inr ⟨q, by simp [State.moveTo]⟩
      · intro c' q' hc hreported hpending hdir hfull
        refine setSignal_keeps hfull ?_
        rintro ⟨hrx, hid⟩
        exact hc (hguard hrx c' ⟨hreported, q', hpending, hdir, hid.symm⟩)

/-- A new call is not reported yet. -/
theorem AllDelivered.of_callStep {q : Wait} (h : AllDelivered s)
    (hstep : callStep c q s = some s') : AllDelivered s' := by
  obtain ⟨-, rfl⟩ := callStep_eq hstep
  intro c' hc'
  have hc : c' ≠ c := by
    rintro rfl
    simp [State.moveTo] at hc'
  have hbefore : s.reported c' = true := by simpa [State.moveTo, hc] using hc'
  refine (h c' hbefore).frame ?_ (fun _ _ _ hfull => hfull) (fun _ halive => halive)
  simp [State.moveTo, hc]

/-- The wait of a reported client does not time out. -/
theorem AllDelivered.of_timeoutStep (h : AllDelivered s) (hstep : timeoutStep c s = some s') :
    AllDelivered s' := by
  obtain ⟨q, hpc, hempty, rfl⟩ := timeoutStep_eq hstep
  have hnot : s.reported c ≠ true := by
    intro hreported
    have hfull := h.wakesUp.waits c q hreported hpc
    rw [hempty] at hfull
    cases hfull
  exact h.moveTo rfl rfl rfl (fun hr => absurd hr hnot) (fun _ _ _ _ _ _ hfull => hfull)

end Clients

/-! ## Every run -/

variable [DecidableEq ι]

/-- One undisturbed step of any kind. -/
theorem AllDelivered.step {sd : WifiSocketId → Int} {s s' : State ι} {a : Action ι}
    (h : AllDelivered s) (hguard : Undisturbed sd s a)
    (hstep : Monitor.step sd s a = some s') : AllDelivered s' := by
  obtain ⟨hrunning, hmove⟩ := step_move hstep
  cases hmove with
  | call c q hmove => exact h.of_callStep hmove
  | client c now hmove => exact h.of_clientStep hguard hmove
  | timeout c hmove => exact h.of_timeoutStep hmove
  | task env hmove => exact h.of_taskStep hrunning hguard hmove
  | resume hmove =>
      rw [resumeStep_eq hmove]
      exact h.frame rfl rfl rfl rfl

/-- In every run of undisturbed steps, a client whose socket is reported
readable after it has registered its deadline returns 0. -/
theorem reported_clients_wake (sd : WifiSocketId → Int) (as : List (Action ι))
    (h : (machine sd).Guarded (Undisturbed sd) State.init as) :
    (machine sd).Always WakesUp State.init as := by
  refine Machine.always_of_guarded (I := AllDelivered) ?_ ?_ ?_ h
  · intro s a s' hs hguard hstep
    exact hs.step hguard hstep
  · intro s hs
    exact hs.wakesUp
  · intro c hc
    cases hc

/-! ## One client -/

/-- Only the LWM2M context has a socket. -/
def lwm2mOnly : WifiSocketId → Int
  | .lwm2m => 1
  | _ => -1

/-- `enqueue_select_rx(wifi_service_lwm2m_socket, sd, 10)` -/
def awaitData : Wait := ⟨.rx, .lwm2m, 10⟩

/-- `n` steps of the client, at time 100. -/
def clientSteps (n : Nat) : List (Action Unit) := List.replicate n (.client () 100)

/-- The rest of a round of the task that starts at time 100, in which
`sl_Select` finds the socket readable. -/
def readableRound : List (Action Unit) :=
  List.replicate 16 (.task ⟨100, 1, fun _ => fdBit 1⟩)

/-- The client has drained its signal and notified before the task scans. -/
def wokenUp : List (Action Unit) :=
  [.resume, .task ⟨100, 1, fun _ => 0#32⟩, .call () awaitData] ++ clientSteps 5 ++
    readableRound ++ clientSteps 1

theorem reported_clients_wake_wokenUp :
    (machine lwm2mOnly).Guarded (Undisturbed lwm2mOnly) State.init wokenUp ∧
      (machine lwm2mOnly).Always WakesUp State.init wokenUp ∧
      ((machine lwm2mOnly).run State.init wokenUp).map (fun s => (s.reported (), s.client ())) =
        some (true, .returned awaitData 0) :=
  ⟨by decide +kernel, reported_clients_wake _ _ (by decide +kernel), by decide +kernel⟩

/-- The client has registered its deadline, and the task, which was not asleep,
runs its round before the client drains the signal. -/
def discarded : List (Action Unit) :=
  [.resume, .task ⟨100, 1, fun _ => 0#32⟩, .call () awaitData] ++ clientSteps 3 ++
    readableRound ++ clientSteps 2 ++ [.timeout ()]

/-- The client takes the fresh signal for a stale one, and returns -1. -/
theorem drain_discards_report :
    ¬∀ (sd : WifiSocketId → Int) (as : List (Action Unit)),
      (machine sd).Always WakesUp State.init as := by
  intro h
  obtain ⟨s, hrun, hreported, hclient⟩ :
      ∃ s, (machine lwm2mOnly).run State.init discarded = some s ∧ s.reported () = true ∧
        s.client () = .returned awaitData (-1) := by
    have hlast : ((machine lwm2mOnly).run State.init discarded).map
        (fun s => (s.reported (), s.client ())) = some (true, .returned awaitData (-1)) := by
      decide +kernel
    obtain ⟨s, hrun, hs⟩ := Option.map_eq_some_iff.mp hlast
    exact ⟨s, hrun, congrArg Prod.fst hs, congrArg Prod.snd hs⟩
  have hzero := ((h lwm2mOnly discarded).last hrun).returns () _ _ hreported hclient
  cases hzero

end Uiso.Monitor
