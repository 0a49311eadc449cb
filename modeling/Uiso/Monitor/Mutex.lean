/-
  Monitor/Mutex.lean --- the critical sections of the network monitor.

  `network_monitor_mutex` is taken and given in four places: by a client that stores
  its deadline, in `wifi_service_register_rx_socket` or in its counterpart for writing,
  and by `select_task` around its scan and around its second pass.  At every moment the
  task that holds the mutex is the one that is inside one of these sections.
-/
import Uiso.Monitor.Task

set_option autoImplicit false

namespace Uiso.Monitor

open Uiso.Foundation
open Uiso.Network

variable {ι : Type}

/-! ## The sections -/

/-- Between the take and the give of the mutex in a registration. -/
def ClientPc.inSection : ClientPc → Bool
  | .store _ => true
  | .unlock _ _ => true
  | _ => false

/-- Between a take and a give of the mutex in `select_task`. -/
def TaskPc.inSection : TaskPc → Bool
  | .scan _ _ _ => true
  | .unlock _ => true
  | .rxPass _ _ => true
  | .txPass _ _ => true
  | .unlockAgain => true
  | _ => false

/-- Whether a task is inside one of its critical sections. -/
def State.inSection (s : State ι) : Holder ι → Bool
  | .task => s.task.inSection
  | .client c => (s.client c).inSection

/-- The holder of the mutex is the task that is inside a critical section. -/
def HolderInSection (s : State ι) : Prop :=
  ∀ holder, s.mutex = some holder ↔ s.inSection holder = true

theorem holderInSection_init : HolderInSection (State.init : State ι) := by
  intro holder
  cases holder <;> exact iff_of_false nofun nofun

/-- At most one task is inside a critical section. -/
theorem HolderInSection.unique {s : State ι} (h : HolderInSection s) {a b : Holder ι}
    (ha : s.inSection a = true) (hb : s.inSection b = true) : a = b :=
  Option.some.inj (((h a).mpr ha).symm.trans ((h b).mpr hb))

/-! ## What a step does to the mutex -/

/-- A step that leaves the mutex alone, and enters or leaves no section. -/
theorem HolderInSection.keep {s : State ι} (h : HolderInSection s) (s' : State ι)
    (hmutex : s'.mutex = s.mutex) (hsection : ∀ a, s'.inSection a = s.inSection a) :
    HolderInSection s' := by
  intro holder
  rw [hmutex, hsection holder]
  exact h holder

/-- A step that takes the mutex and enters a section. -/
theorem HolderInSection.take {s s' : State ι} {a : Holder ι} (h : HolderInSection s)
    (hfree : s.mutex = none) (hmutex : s'.mutex = some a) (hself : s'.inSection a = true)
    (hother : ∀ b, b ≠ a → s'.inSection b = s.inSection b) : HolderInSection s' := by
  intro holder
  by_cases heq : holder = a
  · subst heq
    exact iff_of_true hmutex hself
  · have hout : s.mutex ≠ some holder := by
      rw [hfree]
      exact nofun
    rw [hother holder heq, ← h holder, hmutex]
    exact iff_of_false (fun hsome => heq (Option.some.inj hsome).symm) hout

/-- A step that gives the mutex and leaves a section. -/
theorem HolderInSection.give {s s' : State ι} {a : Holder ι} (h : HolderInSection s)
    (hin : s.inSection a = true) (hmutex : s'.mutex = none) (hself : s'.inSection a = false)
    (hother : ∀ b, b ≠ a → s'.inSection b = s.inSection b) : HolderInSection s' := by
  intro holder
  rw [hmutex]
  refine iff_of_false nofun ?_
  intro hsection
  by_cases heq : holder = a
  · subst heq
    exact Bool.noConfusion (hself.symm.trans hsection)
  · exact heq (h.unique ((hother holder heq).symm.trans hsection) hin)

theorem inSection_congr {s s' : State ι} (hclient : s'.client = s.client)
    (htask : s'.task.inSection = s.task.inSection) (a : Holder ι) :
    s'.inSection a = s.inSection a := by
  cases a with
  | task => exact htask
  | client c => exact congrArg (fun client => (client c).inSection) hclient

/-- Moving the task alone changes only whether the task is inside a section. -/
theorem inSection_of_task {s s' : State ι} (hclient : s'.client = s.client) (b : Holder ι)
    (hb : b ≠ .task) : s'.inSection b = s.inSection b := by
  cases b with
  | task => exact absurd rfl hb
  | client c => exact congrArg (fun client => (client c).inSection) hclient

/-- A move of the task within or outside its sections. -/
theorem HolderInSection.keepTask {s s' : State ι} (h : HolderInSection s)
    (hmutex : s'.mutex = s.mutex) (hclient : s'.client = s.client)
    (htask : s'.task.inSection = s.task.inSection) : HolderInSection s' :=
  h.keep s' hmutex (inSection_congr hclient htask)

section Steps

variable {sd : WifiSocketId → Int}

theorem passRx_frame (ready : Ready) (id : WifiSocketId) (s : State ι) :
    (passRx sd ready id s).mutex = s.mutex ∧ (passRx sd ready id s).client = s.client := by
  unfold passRx
  split <;> exact ⟨rfl, rfl⟩

theorem passTx_frame (ready : Ready) (id : WifiSocketId) (s : State ι) :
    (passTx sd ready id s).mutex = s.mutex ∧ (passTx sd ready id s).client = s.client := by
  unfold passTx
  split <;> exact ⟨rfl, rfl⟩

/-- A step of the task moves no client. -/
theorem TaskMove.client_eq {env : Env} {s s' : State ι} (hmove : TaskMove sd env s s') :
    s'.client = s.client := by
  cases hmove with
  | @scan now id rest sel htask =>
      obtain ⟨deadline, hframe⟩ := scanContext_frame sd now id sel s
      simp only [hframe]
  | rxPass htask => exact (passRx_frame _ _ s).2
  | txPass htask => exact (passTx_frame _ _ s).2
  | _ => rfl

theorem HolderInSection.taskMove {env : Env} {s s' : State ι} (h : HolderInSection s)
    (hmove : TaskMove sd env s s') : HolderInSection s' := by
  have hclient := hmove.client_eq
  cases hmove with
  | start htask => exact h.keepTask rfl rfl (by rw [htask]; rfl)
  | lock htask hmutex => exact h.take hmutex rfl rfl (inSection_of_task hclient)
  | @scan now id rest sel htask =>
      obtain ⟨deadline, hframe⟩ := scanContext_frame sd now id sel s
      exact h.keepTask (by simp only [hframe]) hclient (by rw [htask]; rfl)
  | scanned htask => exact h.keepTask rfl rfl (by rw [htask]; rfl)
  | collected htask hptr =>
      exact h.give (a := .task) (congrArg TaskPc.inSection htask) rfl rfl
        (inSection_of_task hclient)
  | sleep htask hptr =>
      exact h.give (a := .task) (congrArg TaskPc.inSection htask) rfl rfl
        (inSection_of_task hclient)
  | select htask hresult => exact h.keepTask rfl rfl (by rw [htask]; rfl)
  | selectNone htask hresult => exact h.keepTask rfl rfl (by rw [htask]; rfl)
  | relock htask hmutex => exact h.take hmutex rfl rfl (inSection_of_task hclient)
  | rxPass htask => exact h.keepTask (passRx_frame _ _ s).1 hclient (by rw [htask]; rfl)
  | rxPassed htask => exact h.keepTask rfl rfl (by rw [htask]; rfl)
  | txPass htask => exact h.keepTask (passTx_frame _ _ s).1 hclient (by rw [htask]; rfl)
  | txPassed htask => exact h.keepTask rfl rfl (by rw [htask]; rfl)
  | unlockAgain htask =>
      exact h.give (a := .task) (congrArg TaskPc.inSection htask) rfl rfl
        (inSection_of_task hclient)
  | wake htask hreceived => exact h.keepTask rfl rfl (by rw [htask]; rfl)

variable [DecidableEq ι]

@[simp] theorem inSection_moveTo_self (s : State ι) (c : ι) (pc : ClientPc) :
    (s.moveTo c pc).inSection (.client c) = pc.inSection := by
  simp [State.inSection, State.moveTo]

/-- Moving a client changes only whether this client is inside a section. -/
theorem inSection_moveTo_other (s : State ι) (c : ι) (pc : ClientPc) (b : Holder ι)
    (hb : b ≠ .client c) : (s.moveTo c pc).inSection b = s.inSection b := by
  cases b with
  | task => rfl
  | client d =>
      have hne : d ≠ c := fun heq => hb (congrArg Holder.client heq)
      simp [State.inSection, State.moveTo, hne]

/-- A move of a client within or outside its section. -/
theorem HolderInSection.keepClient {s t : State ι} {c : ι} {pc : ClientPc}
    (h : HolderInSection s) (hmutex : t.mutex = s.mutex)
    (hsection : ∀ a, t.inSection a = s.inSection a)
    (hpc : pc.inSection = (s.client c).inSection) : HolderInSection (t.moveTo c pc) := by
  refine h.keep (t.moveTo c pc) hmutex ?_
  intro a
  by_cases heq : a = .client c
  · subst heq
    rw [inSection_moveTo_self]
    exact hpc
  · rw [inSection_moveTo_other _ _ _ _ heq]
    exact hsection a

/-- A step of a client moves this client, and neither the task nor another client. -/
theorem ClientMove.eq_moveTo {c : ι} {now : UInt32} {s s' : State ι}
    (hmove : ClientMove c now s s') :
    ∃ (t : State ι) (pc : ClientPc),
      s' = t.moveTo c pc ∧ t.client = s.client ∧ t.task = s.task := by
  cases hmove <;> exact ⟨_, _, rfl, rfl, rfl⟩

theorem HolderInSection.clientMove {c : ι} {now : UInt32} {s s' : State ι}
    (h : HolderInSection s) (hmove : ClientMove c now s s') : HolderInSection s' := by
  cases hmove with
  | lock hpc hmutex =>
      exact h.take hmutex rfl (inSection_moveTo_self _ _ _) (inSection_moveTo_other _ _ _)
  | store hpc => exact h.keepClient rfl (inSection_congr rfl rfl) (by rw [hpc]; rfl)
  | unlock hpc =>
      exact h.give (a := .client c) (congrArg ClientPc.inSection hpc) rfl
        (inSection_moveTo_self _ _ _) (inSection_moveTo_other _ _ _)
  | drain hpc => exact h.keepClient rfl (inSection_congr rfl rfl) (by rw [hpc]; rfl)
  | notify hpc => exact h.keepClient rfl (inSection_congr rfl rfl) (by rw [hpc]; rfl)
  | take hpc hsignal => exact h.keepClient rfl (inSection_congr rfl rfl) (by rw [hpc]; rfl)

/-- A client that calls is in no section. -/
theorem inSection_of_callStep {c : ι} {q : Wait} {s s' : State ι}
    (h : callStep c q s = some s') : (s.client c).inSection = false := by
  cases hpc : s.client c with
  | store q' => simp [callStep, hpc] at h
  | unlock q' deadline => simp [callStep, hpc] at h
  | _ => rfl

omit [DecidableEq ι] in
/-- The task is resumed outside its sections. -/
theorem inSection_of_resumeStep {s s' : State ι} (h : resumeStep s = some s') :
    s.task.inSection = false := by
  unfold resumeStep at h
  split at h
  · rename_i htask
    rw [htask]
    rfl
  · rename_i htask
    rw [htask]
    rfl
  · cases h

omit [DecidableEq ι] in
/-- A resumption leaves the mutex, and every task inside or outside its section. -/
theorem resumeStep_frame {s s' : State ι} (hstep : resumeStep s = some s') :
    s'.mutex = s.mutex ∧ ∀ a, s'.inSection a = s.inSection a := by
  have hout := inSection_of_resumeStep hstep
  obtain rfl := resumeStep_eq hstep
  have hclient : { s with task := .start }.client = s.client := rfl
  exact ⟨rfl, inSection_congr hclient hout.symm⟩

end Steps

/-! ## Runs -/

variable [DecidableEq ι]

/-- The task whose step an action is; the resumption comes from outside. -/
def Action.actor : Action ι → Option (Holder ι)
  | .call c _ => some (.client c)
  | .client c _ => some (.client c)
  | .timeout c => some (.client c)
  | .task _ => some .task
  | .resume => none

/-- A step of the monitor keeps the holder of the mutex inside its section. -/
theorem HolderInSection.step {sd : WifiSocketId → Int} {s s' : State ι} {a : Action ι}
    (h : HolderInSection s) (hstep : Monitor.step sd s a = some s') : HolderInSection s' := by
  cases (step_move hstep).2 with
  | call c q hmove =>
      have hout := inSection_of_callStep hmove
      obtain ⟨_, rfl⟩ := callStep_eq hmove
      exact h.keepClient rfl (inSection_congr rfl rfl) hout.symm
  | client c now hmove => exact h.clientMove (clientStep_move hmove)
  | timeout c hmove =>
      obtain ⟨q, hpc, _, rfl⟩ := timeoutStep_eq hmove
      exact h.keepClient rfl (inSection_congr rfl rfl) (by rw [hpc]; rfl)
  | task env hmove => exact h.taskMove (taskStep_move sd hmove)
  | resume hmove => exact h.keep s' (resumeStep_frame hmove).1 (resumeStep_frame hmove).2

/-- A step moves no other task into or out of a section. -/
theorem inSection_step_other {sd : WifiSocketId → Int} {s s' : State ι} {a : Action ι}
    {b : Holder ι} (hstep : Monitor.step sd s a = some s') (hb : a.actor ≠ some b) :
    s'.inSection b = s.inSection b := by
  cases (step_move hstep).2 with
  | call c q hmove =>
      obtain ⟨_, rfl⟩ := callStep_eq hmove
      exact inSection_moveTo_other _ _ _ _ (fun heq => hb (congrArg some heq.symm))
  | client c now hmove =>
      obtain ⟨t, pc, rfl, hclient, htask⟩ := (clientStep_move hmove).eq_moveTo
      rw [inSection_moveTo_other _ _ _ _ (fun heq => hb (congrArg some heq.symm))]
      exact inSection_congr hclient (congrArg TaskPc.inSection htask) b
  | timeout c hmove =>
      obtain ⟨q, _, _, rfl⟩ := timeoutStep_eq hmove
      exact inSection_moveTo_other _ _ _ _ (fun heq => hb (congrArg some heq.symm))
  | task env hmove =>
      exact inSection_of_task (taskStep_move sd hmove).client_eq _
        (fun heq => hb (congrArg some heq.symm))
  | resume hmove => exact (resumeStep_frame hmove).2 b

/-- In every run, two tasks inside a critical section are the same task. -/
theorem sections_exclusive {sd : WifiSocketId → Int} {actions : List (Action ι)} {s : State ι}
    (hrun : (machine sd).run State.init actions = some s) {a b : Holder ι}
    (ha : s.inSection a = true) (hb : s.inSection b = true) : a = b := by
  have halways : (machine sd).Always HolderInSection State.init actions :=
    Machine.always_of_invariant (fun _ _ _ h hstep => h.step hstep) (fun _ h => h)
      holderInSection_init
  exact (halways.last hrun).unique ha hb

end Uiso.Monitor
