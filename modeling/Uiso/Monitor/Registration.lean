/-
  Monitor/Registration.lean --- no registration is lost.

  When `select_task` sleeps with nothing pending, a deadline that is still set
  was stored by a client that has yet to notify the task.

  The window between scan and sleep is why the invariant speaks about the scan
  too: from the moment a context has been scanned, each of its deadlines is
  cleared, or collected into a set, or stored since by a client that has not
  notified, or announced by a notification the task has not consumed.  The mutex
  plays no part in this: one round of the scan is one step, and a deadline stored
  in the middle of the scan is its client's to announce.
-/
import Uiso.Monitor.Task

set_option autoImplicit false

namespace Uiso.Monitor

open Uiso.Foundation
open Uiso.Network
open Uiso.Rtos

variable {ι : Type}

/-! ## The property -/

/-- The deadline belongs to a client that has stored it and not yet notified. -/
def Registered (s : State ι) (dir : Dir) (id : WifiSocketId) : Prop :=
  ∃ c q, (s.client c).registered = some (q, s.deadline dir id) ∧ q.dir = dir ∧ q.id = id

/-- When the task sleeps with nothing pending, every deadline of an open context
belongs to a client on its way to notify. -/
def NoLostRegistration (sd : WifiSocketId → Int) (s : State ι) : Prop :=
  s.task = .waiting → s.notification.received = false →
    ∀ dir id, 0 < sd id → s.deadline dir id ≠ 0 → Registered s dir id

/-! ## The invariant -/

/-- The task will not overlook the deadline. -/
def Noticed (s : State ι) (ptr : Dir → Bool) (dir : Dir) (id : WifiSocketId) : Prop :=
  s.deadline dir id = 0 ∨ s.notification.received = true ∨ Registered s dir id ∨ ptr dir = true

/-- The pointers the task will decide by, and the contexts it has yet to scan;
`none` where it will scan everything before it sleeps. -/
def TaskPc.scanned : TaskPc → Option ((Dir → Bool) × List WifiSocketId)
  | .scan _ rest sel => some (sel.ptr, rest)
  | .unlock sel => some (sel.ptr, [])
  | .waiting => some (fun _ => false, [])
  | _ => none

/-- Every deadline of a scanned context is noticed. -/
def ScannedNoticed (sd : WifiSocketId → Int) (s : State ι) : Prop :=
  ∀ ptr rest, s.task.scanned = some (ptr, rest) →
    ∀ dir id, 0 < sd id → id ∉ rest → Noticed s ptr dir id

theorem ScannedNoticed.noLostRegistration {sd : WifiSocketId → Int} {s : State ι}
    (h : ScannedNoticed sd s) : NoLostRegistration sd s := by
  intro htask hreceived dir id hsd hdeadline
  have hscanned : s.task.scanned = some (fun _ => false, []) := by rw [htask]; rfl
  rcases h _ _ hscanned dir id hsd List.not_mem_nil with hzero | hpending | hregistered | hptr
  · exact absurd hzero hdeadline
  · rw [hreceived] at hpending
    cases hpending
  · exact hregistered
  · cases hptr

/-- What a step has to leave alone for a deadline to stay noticed. -/
theorem Noticed.frame {s s' : State ι} {ptr ptr' : Dir → Bool} {dir : Dir} {id : WifiSocketId}
    (hdeadline : s'.deadline dir id = s.deadline dir id)
    (hreceived : s.notification.received = true → s'.notification.received = true)
    (hclient : ∀ c p, (s.client c).registered = some p → (s'.client c).registered = some p)
    (hptr : ptr dir = true → ptr' dir = true)
    (h : Noticed s ptr dir id) : Noticed s' ptr' dir id := by
  rcases h with hzero | hpending | ⟨c, q, hregistered, hdir, hid⟩ | hset
  · exact .inl (hdeadline.trans hzero)
  · exact .inr (.inl (hreceived hpending))
  · refine .inr (.inr (.inl ⟨c, q, ?_, hdir, hid⟩))
    rw [hdeadline]
    exact hclient c _ hregistered
  · exact .inr (.inr (.inr (hptr hset)))

/-! ## Steps of the clients -/

section Clients

variable [DecidableEq ι]

/-- Moving a client that has nothing registered, or keeps what it has, after an
update `t` of the state that leaves the clients and this deadline alone. -/
theorem Noticed.moveTo {s t : State ι} {ptr : Dir → Bool} {dir : Dir} {id : WifiSocketId}
    {c : ι} {pc : ClientPc} (h : Noticed s ptr dir id)
    (hclient : t.client = s.client) (hdeadline : t.deadline dir id = s.deadline dir id)
    (hreceived : s.notification.received = true → t.notification.received = true)
    (hpc : (s.client c).registered = none ∨ pc.registered = (s.client c).registered) :
    Noticed (t.moveTo c pc) ptr dir id := by
  refine Noticed.frame hdeadline hreceived ?_ (fun hptr => hptr) h
  intro c' p hregistered
  by_cases hc : c' = c
  · subst hc
    have hnow : (t.moveTo c' pc).client c' = pc := by simp [State.moveTo]
    rw [hnow]
    rcases hpc with hnone | hsame
    · rw [hnone] at hregistered
      cases hregistered
    · rw [hsame, hregistered]
  · have hother : (t.moveTo c pc).client c' = s.client c' := by
      simp [State.moveTo, hclient, hc]
    rw [hother]
    exact hregistered

variable {s s' : State ι} {c : ι} {ptr : Dir → Bool} {dir : Dir} {id : WifiSocketId}

/-- A step of a client, the one that stores its deadline included, leaves every
deadline noticed. -/
theorem Noticed.of_clientStep {now : UInt32} (h : Noticed s ptr dir id)
    (hstep : clientStep c now s = some s') : Noticed s' ptr dir id := by
  cases clientStep_move hstep with
  | lock hpc hmutex => exact h.moveTo rfl rfl (fun hr => hr) (.inl (by rw [hpc]; rfl))
  | @store q hpc =>
      by_cases hstored : dir = q.dir ∧ id = q.id
      · -- the deadline is overwritten: it is this client's from now on
        obtain ⟨rfl, rfl⟩ := hstored
        refine .inr (.inr (.inl ⟨c, q, ?_, rfl, rfl⟩))
        simp [State.moveTo, ClientPc.registered, State.setDeadline]
      · refine h.moveTo rfl ?_ (fun hr => hr) (.inl (by rw [hpc]; rfl))
        exact s.setDeadline_other _ hstored
  | unlock hpc => exact h.moveTo rfl rfl (fun hr => hr) (.inr (by rw [hpc]; rfl))
  | drain hpc => exact h.moveTo rfl rfl (fun hr => hr) (.inr (by rw [hpc]; rfl))
  | notify hpc => exact .inr (.inl rfl)
  | take hpc hsignal => exact h.moveTo rfl rfl (fun hr => hr) (.inl (by rw [hpc]; rfl))

/-- A step of a client does not move the task. -/
theorem task_of_clientStep {now : UInt32} (hstep : clientStep c now s = some s') :
    s'.task = s.task := by
  cases clientStep_move hstep <;> rfl

end Clients

/-! ## Steps of the task -/

/-- A scanned deadline is cleared or collected. -/
theorem scanDeadline_noticed (now : UInt32) (sd : Int) (dir : Dir) (deadline : UInt32)
    (sel : Selection) :
    (scanDeadline now sd dir deadline sel).1 = 0 ∨
      (scanDeadline now sd dir deadline sel).2.ptr dir = true := by
  unfold scanDeadline
  split
  · rename_i hzero
    exact .inl hzero
  · split
    · right
      split <;> simp [Selection.add]
    · split
      · right
        simp [Selection.add]
      · exact .inl rfl

/-- What is collected stays collected. -/
theorem scanDeadline_ptr (now : UInt32) (sd : Int) (dir : Dir) (deadline : UInt32)
    {sel : Selection} {dir' : Dir} (h : sel.ptr dir' = true) :
    (scanDeadline now sd dir deadline sel).2.ptr dir' = true := by
  have hadd : (sel.add dir sd).ptr dir' = true := by
    by_cases hdir : dir' = dir
    · subst hdir
      simp [Selection.add]
    · simp [Selection.add, hdir, h]
  unfold scanDeadline
  split
  · exact h
  · split
    · split <;> exact hadd
    · split
      · exact hadd
      · exact h

section Task

variable (sd : WifiSocketId → Int) (now : UInt32) {id : WifiSocketId} (sel : Selection)
variable (s : State ι)

/-- The scan of a context leaves the others alone. -/
theorem scanContext_other {dir : Dir} {id' : WifiSocketId} (h : id' ≠ id) :
    (scanContext sd now id sel s).2.deadline dir id' = s.deadline dir id' := by
  unfold scanContext
  split
  · rw [State.setDeadline_other _ _ (fun hsame => h hsame.2),
      State.setDeadline_other _ _ (fun hsame => h hsame.2)]
  · rfl

theorem scanContext_ptr {dir : Dir} (h : sel.ptr dir = true) :
    (scanContext sd now id sel s).1.ptr dir = true := by
  unfold scanContext
  split
  · exact scanDeadline_ptr _ _ _ _ (scanDeadline_ptr _ _ _ _ h)
  · exact h

/-- Both deadlines of an open context are cleared or collected. -/
theorem scanContext_noticed (hsd : 0 < sd id) (dir : Dir) :
    (scanContext sd now id sel s).2.deadline dir id = 0 ∨
      (scanContext sd now id sel s).1.ptr dir = true := by
  simp only [scanContext, if_pos hsd]
  cases dir with
  | rx =>
      have hdir : ¬(Dir.rx = Dir.tx ∧ id = id) := by simp
      rw [State.setDeadline_other _ _ hdir, State.setDeadline_same]
      refine (scanDeadline_noticed now (sd id) .rx (s.deadline .rx id) sel).imp_right ?_
      exact scanDeadline_ptr _ _ _ _
  | tx =>
      rw [State.setDeadline_same]
      exact scanDeadline_noticed _ _ _ _ _

variable {sd s} {s' : State ι}

/-- One round of the scan. -/
theorem ScannedNoticed.scan {rest : List WifiSocketId} (h : ScannedNoticed sd s)
    (htask : s.task = .scan now (id :: rest) sel) :
    ScannedNoticed sd
      { (scanContext sd now id sel s).2 with
        task := .scan now rest (scanContext sd now id sel s).1 } := by
  intro ptr rest' hscanned dir id' hsd hrest
  obtain ⟨rfl, rfl⟩ : (scanContext sd now id sel s).1.ptr = ptr ∧ rest = rest' := by
    simpa [TaskPc.scanned] using hscanned
  by_cases hid : id' = id
  · subst hid
    rcases scanContext_noticed sd now sel s hsd dir with hzero | hptr
    · exact .inl hzero
    · exact .inr (.inr (.inr hptr))
  · have hbefore : Noticed s sel.ptr dir id' :=
      h _ _ (by rw [htask]; rfl) dir id' hsd (by simp [hid, hrest])
    obtain ⟨deadline, hframe⟩ := scanContext_frame sd now id sel s
    refine hbefore.frame (scanContext_other sd now sel s hid) ?_ ?_
      (scanContext_ptr sd now sel s)
    · rw [hframe]
      exact fun hr => hr
    · rw [hframe]
      exact fun c p hp => hp

/-- A state in which the task will scan everything before it sleeps. -/
theorem ScannedNoticed.of_none (h : s'.task.scanned = none) : ScannedNoticed sd s' := by
  intro ptr rest hscanned
  rw [h] at hscanned
  cases hscanned

/-- A step of the task that only moves it, to where the same has been scanned,
deciding by the same pointers. -/
theorem ScannedNoticed.advance {ptr ptr' : Dir → Bool} {task : TaskPc}
    {mutex : Option (Holder ι)} (h : ScannedNoticed sd s)
    (hbefore : s.task.scanned = some (ptr, [])) (hafter : task.scanned = some (ptr', []))
    (hptr : ∀ dir, ptr dir = true → ptr' dir = true) :
    ScannedNoticed sd { s with task := task, mutex := mutex } := by
  intro ptr'' rest hscanned dir id hsd hrest
  obtain ⟨rfl, rfl⟩ : ptr' = ptr'' ∧ [] = rest := by
    simpa [hafter] using hscanned
  exact (h _ _ hbefore dir id hsd hrest).frame rfl (fun hr => hr) (fun _ _ hp => hp) (hptr dir)

/-- Every step of the task. -/
theorem ScannedNoticed.of_taskStep {env : Env} (h : ScannedNoticed sd s)
    (hstep : taskStep sd env s = some s') : ScannedNoticed sd s' := by
  cases taskStep_move sd hstep with
  | lock htask hmutex =>
      -- nothing has been scanned yet: every context is still in the list
      intro ptr rest hscanned dir id _ hrest
      obtain ⟨-, rfl⟩ : _ ∧ WifiSocketId.all = rest := by
        simpa [TaskPc.scanned] using hscanned
      exact absurd (WifiSocketId.mem_all id) hrest
  | scan htask => exact h.scan _ _ htask
  | scanned htask => exact h.advance (by rw [htask]; rfl) rfl (fun _ hptr => hptr)
  | sleep htask hptr =>
      -- no pointer is set, so nothing is noticed by being collected
      obtain ⟨hrx, htx⟩ := Bool.or_eq_false_iff.mp hptr
      refine h.advance (by rw [htask]; rfl) rfl ?_
      intro dir hset
      cases dir
      · rw [hrx] at hset
        exact hset
      · rw [htx] at hset
        exact hset
  | start _ | collected _ _ | select _ _ | selectNone _ _ | relock _ _ | rxPass _ | rxPassed _
  | txPass _ | txPassed _ | unlockAgain _ | wake _ _ => exact .of_none rfl

end Task

/-! ## Every run -/

variable {sd : WifiSocketId → Int} {s s' : State ι}

/-- A step that leaves the task where it is keeps the invariant when it keeps
every deadline noticed. -/
theorem ScannedNoticed.of_client (h : ScannedNoticed sd s) (htask : s'.task = s.task)
    (hnoticed : ∀ ptr dir id, Noticed s ptr dir id → Noticed s' ptr dir id) :
    ScannedNoticed sd s' := by
  intro ptr rest hscanned dir id hsd hrest
  rw [htask] at hscanned
  exact hnoticed ptr dir id (h ptr rest hscanned dir id hsd hrest)

variable [DecidableEq ι]

/-- One step of any kind. -/
theorem ScannedNoticed.step {a : Action ι} (h : ScannedNoticed sd s)
    (hstep : Monitor.step sd s a = some s') : ScannedNoticed sd s' := by
  cases (step_move hstep).2 with
  | call c q hmove =>
      obtain ⟨hidle, rfl⟩ := callStep_eq hmove
      exact h.of_client rfl fun _ _ _ hn => hn.moveTo rfl rfl (fun hr => hr) (.inl hidle)
  | client c now hmove =>
      exact h.of_client (task_of_clientStep hmove) fun _ _ _ hn => hn.of_clientStep hmove
  | timeout c hmove =>
      obtain ⟨q, hpc, -, rfl⟩ := timeoutStep_eq hmove
      exact h.of_client rfl fun _ _ _ hn =>
        hn.moveTo rfl rfl (fun hr => hr) (.inl (by rw [hpc]; rfl))
  | task env hmove => exact h.of_taskStep hmove
  | resume hmove =>
      rw [resumeStep_eq hmove]
      exact .of_none rfl

/-- No registration is lost: in every state of every interleaving, when the task
sleeps with no notification pending, a deadline that is set belongs to a client
that has not notified yet. -/
theorem no_lost_registration (sd : WifiSocketId → Int) (as : List (Action ι)) :
    (machine sd).Always (NoLostRegistration sd) State.init as := by
  refine Machine.always_of_invariant (I := ScannedNoticed sd) ?_ ?_ ?_
  · intro s a s' h hstep
    exact h.step hstep
  · intro s h
    exact h.noLostRegistration
  · exact .of_none rfl

end Uiso.Monitor
