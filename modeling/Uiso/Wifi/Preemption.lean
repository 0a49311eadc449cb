/-
  Wifi/Preemption.lean --- `wifi_task` next to the tasks it suspends.

  A state is that of the wifi service together with that of the network monitor and its
  clients, the LWM2M and the MQTT task.  `select_task` and the clients take a step only
  while they are neither suspended nor before their first instruction; `wifi_task` and
  the handlers that notify it step at any time.  So this has the runs in which
  `wifi_task` has the higher priority, and more.

  `vTaskSuspend` takes effect wherever its target is.  What matters is where that is:
  inside or outside the sections of `network_monitor_mutex`.
-/
import Uiso.Monitor.Mutex
import Uiso.Wifi.Task

set_option autoImplicit false

namespace Uiso.Wifi

open Uiso.Foundation
open Uiso.Network
open Uiso.Rtos
open Uiso.Monitor (Holder HolderInSection)

/-! ## The tasks -/

/-- The tasks that call `enqueue_select_rx` and `enqueue_select_tx`. -/
inductive Caller where
  | lwm2m
  | mqtt
  deriving DecidableEq, Repr

/-- The task of a caller, as `wifi_task` knows it. -/
def Caller.client : Caller → Client
  | .lwm2m => .lwm2m
  | .mqtt => .mqtt

/-- The task that holds the mutex, as `wifi_task` knows it. -/
def holderTask : Holder Caller → Client
  | .task => .monitor
  | .client c => c.client

/-- The wifi service, and the network monitor with its clients. -/
structure Tasks where
  wifi : State
  monitor : Monitor.State Caller

/-- Once the scheduler starts. -/
def Tasks.start : Tasks := ⟨State.init, Monitor.State.init⟩

/-- A task that the scheduler can select. -/
def Tasks.runs (s : Tasks) (c : Client) : Bool :=
  (s.wifi.task c).started && !(s.wifi.task c).suspended

/-- The monitor after a step of the wifi service: `vTaskResume` lets a suspended
`select_task` go on. -/
def Tasks.resumed (s : Tasks) (wifi : State) : Monitor.State Caller :=
  if s.wifi.task .monitor = ⟨true, true⟩ ∧ (wifi.task .monitor).suspended = false then
    (Monitor.resumeStep s.monitor).getD s.monitor
  else s.monitor

/-- Who takes the next step. -/
inductive TasksAction where
  | wifi (a : Action)
  | monitor (a : Monitor.Action Caller)

/-- One step of the wifi service, of `select_task` or of one of its clients. -/
def tasksStep (sd : WifiSocketId → Int) (s : Tasks) : TasksAction → Option Tasks
  | .wifi a =>
      if s.monitor.halted then none
      else (step s.wifi a).map fun wifi => ⟨wifi, s.resumed wifi⟩
  | .monitor a =>
      match a.actor with
      | none => none
      | some holder =>
          if s.runs (holderTask holder) then
            (Monitor.step sd s.monitor a).map fun monitor => ⟨s.wifi, monitor⟩
          else none

/-- All interleavings. -/
def tasks (sd : WifiSocketId → Int) : Machine Tasks TasksAction := ⟨tasksStep sd⟩

/-- The task that holds `network_monitor_mutex` is not suspended. -/
def HolderNotSuspended (s : Tasks) : Prop :=
  ∀ holder ∈ s.monitor.mutex, (s.wifi.task (holderTask holder)).suspended = false

instance (s : Tasks) : Decidable (HolderNotSuspended s) :=
  inferInstanceAs (Decidable (∀ _ ∈ _, _))

/-! ## What a step of the wifi service does to a task -/

/-- The target of the `vTaskSuspend` that a step of `wifi_task` calls. -/
def suspendTarget (s : State) : Action → Option Client
  | .task _ =>
      match s.pc with
      | .running _ .suspendLwm2m => some .lwm2m
      | .running _ .suspendMonitor => some .monitor
      | .running _ .suspendMqtt => some .mqtt
      | _ => none
  | _ => none

/-- What can become of a task. -/
inductive TaskChange (target : Option Client) (c : Client) (t : Task) : Task → Prop where
  | same : TaskChange target c t t
  | resume : TaskChange target c t t.resume
  | suspend (htarget : target = some c) : TaskChange target c t t.suspend
  /-- the `vTaskSuspend(NULL)` a task starts with -/
  | first (hstarted : t.started = false) : TaskChange target c t ⟨true, true⟩

theorem TaskChange.started {target : Option Client} {c : Client} {t t' : Task}
    (h : TaskChange target c t t') (hstarted : t'.started = false) : t.started = false := by
  cases h with
  | first _ => cases hstarted
  | _ => exact hstarted

/-- A task that is suspended after a step was so before, or had not run, or is the target. -/
theorem TaskChange.suspended {target : Option Client} {c : Client} {t t' : Task}
    (h : TaskChange target c t t') (hsuspended : t'.suspended = true) :
    t.suspended = true ∨ t.started = false ∨ target = some c := by
  cases h with
  | same => exact .inl hsuspended
  | resume => cases hsuspended
  | suspend htarget => exact .inr (.inr htarget)
  | first hstarted => exact .inr (.inl hstarted)

/-- `vTaskSuspend` on one client. -/
theorem taskChange_suspend (s : State) (c d : Client) :
    TaskChange (some d) c (s.task c) ((s.suspend d).task c) := by
  by_cases heq : c = d
  · subst heq
    simpa [State.suspend] using TaskChange.suspend rfl
  · simpa [State.suspend, heq] using TaskChange.same

/-- `vTaskResume` on one client. -/
theorem taskChange_resume (s : State) (target : Option Client) (c d : Client) :
    TaskChange target c (s.task c) ((s.resume d).task c) := by
  by_cases heq : c = d
  · subst heq
    simpa [State.resume] using TaskChange.resume
  · simpa [State.resume, heq] using TaskChange.same

/-- A statement of the pass. -/
theorem taskChange_block (value : BitVec 32) (reply : Sntp.Reply) (s : State) (b : Block)
    (hpc : s.pc = .running value b) (c : Client) :
    TaskChange (suspendTarget s (.task reply)) c (s.task c)
      ((blockEffect value reply s b).task c) := by
  cases b with
  | suspendLwm2m =>
      simp only [suspendTarget, hpc]
      exact taskChange_suspend s c .lwm2m
  | suspendMonitor =>
      simp only [suspendTarget, hpc]
      exact taskChange_suspend s c .monitor
  | suspendMqtt =>
      simp only [suspendTarget, hpc]
      exact taskChange_suspend s c .mqtt
  | ipAcquired =>
      simp only [blockEffect]
      split
      · exact taskChange_resume s _ c .monitor
      · exact .same
  | ntpSynced =>
      simp only [blockEffect]
      split
      · exact taskChange_resume s _ c .lwm2m
      · exact .same
  | connected | stopTimer | ntpStop =>
      simp only [blockEffect]
      split <;> exact .same
  | ntpRequest | ntpRestart _ | ntpNotify => exact .same

/-- A step of `wifi_task` does to the tasks what the statement it is at does. -/
theorem wifiTask_task {s s' : State} {reply : Sntp.Reply} (h : wifiTask s reply = some s') :
    s'.task = s.task ∨ ∃ value b, s.pc = .running value b ∧
      s'.task = (blockEffect value reply s b).task := by
  unfold wifiTask at h
  cases hpc : s.pc with
  | entry | starting =>
      simp only [hpc, Option.some.injEq] at h
      exact .inl (h ▸ rfl)
  | waiting =>
      simp only [hpc] at h
      split at h
      · exact .inl (Option.some.inj h ▸ rfl)
      · cases h
  | running value b =>
      refine .inr ⟨value, b, rfl, ?_⟩
      simp only [hpc] at h
      split at h <;> exact Option.some.inj h ▸ rfl

/-- A step of the wifi service. -/
theorem taskChange_step {s s' : State} {a : Action} (h : step s a = some s') (c : Client) :
    TaskChange (suspendTarget s a) c (s.task c) (s'.task c) := by
  cases a with
  | wlan event =>
      cases event with
      | none =>
          obtain rfl := Option.some.inj h
          exact .same
      | some event =>
          obtain rfl := Option.some.inj h
          cases event <;> exact .same
  | netApp event =>
      obtain rfl := Option.some.inj h
      cases event <;> exact .same
  | timerExpiry =>
      simp only [step] at h
      split at h
      · obtain rfl := Option.some.inj h
        exact .same
      · cases h
  | taskStart d =>
      simp only [step] at h
      split at h
      · cases h
      · rename_i hfirst
        obtain rfl := Option.some.inj h
        by_cases heq : c = d
        · subst heq
          have hstarted : (s.task c).started = false := by
            simp only [Bool.or_eq_true, not_or, Bool.not_eq_true] at hfirst
            exact hfirst.1
          simpa using TaskChange.first hstarted
        · simpa [heq] using TaskChange.same
  | waitTimeout =>
      simp only [step] at h
      split at h
      · obtain rfl := Option.some.inj h
        exact .same
      · cases h
  | task reply =>
      rcases wifiTask_task h with hsame | ⟨value, b, hpc, hblock⟩
      · rw [hsame]
        exact .same
      · rw [hblock]
        exact taskChange_block value reply s b hpc c

/-- The target of a `vTaskSuspend` is suspended. -/
theorem suspended_of_target {s s' : State} {a : Action} {c : Client}
    (h : step s a = some s') (htarget : suspendTarget s a = some c) :
    (s'.task c).suspended = true := by
  unfold suspendTarget at htarget
  split at htarget
  · split at htarget
    all_goals cases htarget
    all_goals
      rename_i hpc
      simp only [step, wifiTask, hpc, nextBlock, blockEffect, Option.some.injEq] at h
      subst h
      simp [State.suspend]
  · cases htarget

/-! ## The sections under preemption -/

/-- What every step keeps: the holder of the mutex is inside its section, and no task
that has yet to start is inside one. -/
structure TasksJ (s : Tasks) : Prop where
  holder : HolderInSection s.monitor
  unstarted : ∀ h, (s.wifi.task (holderTask h)).started = false → s.monitor.inSection h = false

theorem tasksJ_start : TasksJ Tasks.start := by
  refine ⟨Monitor.holderInSection_init, ?_⟩
  intro h _
  cases h <;> rfl

/-- A resumption leaves the mutex and the sections as they are. -/
theorem Tasks.resumed_frame (s : Tasks) (wifi : State) :
    (s.resumed wifi).mutex = s.monitor.mutex ∧
      ∀ h, (s.resumed wifi).inSection h = s.monitor.inSection h := by
  unfold Tasks.resumed
  split
  · cases hresume : Monitor.resumeStep s.monitor with
    | none => exact ⟨rfl, fun _ => rfl⟩
    | some monitor => exact Monitor.resumeStep_frame hresume
  · exact ⟨rfl, fun _ => rfl⟩

/-- At a call of `vTaskSuspend` the target is outside the critical sections. -/
def SuspendsOutside (s : Tasks) : TasksAction → Prop
  | .wifi a => ∀ h, suspendTarget s.wifi a = some (holderTask h) → s.monitor.inSection h = false
  | .monitor _ => True

/-- A step of the wifi service suspends the holder of the mutex precisely if it calls
`vTaskSuspend` on a task inside its section. -/
theorem wifi_step_spec {s : Tasks} {a : Action} {wifi : State} (hJ : TasksJ s)
    (hstep : step s.wifi a = some wifi) :
    TasksJ ⟨wifi, s.resumed wifi⟩ ∧ (HolderNotSuspended s →
      (HolderNotSuspended ⟨wifi, s.resumed wifi⟩ ↔ SuspendsOutside s (.wifi a))) := by
  obtain ⟨hmutex, hsection⟩ := s.resumed_frame wifi
  refine ⟨⟨hJ.holder.keep _ hmutex hsection, ?_⟩, fun hP => ⟨?_, ?_⟩⟩
  · intro h hstarted
    have hbefore := (taskChange_step hstep (holderTask h)).started hstarted
    exact (hsection h).trans (hJ.unstarted h hbefore)
  · intro hsafe h htarget
    rw [← Bool.not_eq_true]
    intro hin
    have hholds : (s.resumed wifi).mutex = some h := hmutex.trans ((hJ.holder h).mpr hin)
    have hrunning := hsafe h hholds
    exact Bool.noConfusion (hrunning.symm.trans (suspended_of_target hstep htarget))
  · intro houtside h hholds
    have hheld : s.monitor.mutex = some h := hmutex.symm.trans hholds
    have hin : s.monitor.inSection h = true := (hJ.holder h).mp hheld
    rw [← Bool.not_eq_true]
    intro hsuspended
    rcases (taskChange_step hstep (holderTask h)).suspended hsuspended with
      hbefore | hstarted | htarget
    · exact Bool.noConfusion ((hP h hheld).symm.trans hbefore)
    · exact Bool.noConfusion ((hJ.unstarted h hstarted).symm.trans hin)
    · exact Bool.noConfusion ((houtside h htarget).symm.trans hin)

/-- A step of `select_task` or of a client suspends nobody, and only a task that runs takes
the mutex. -/
theorem monitor_step_spec {sd : WifiSocketId → Int} {s : Tasks} {a : Monitor.Action Caller}
    {actor : Holder Caller} {monitor : Monitor.State Caller} (hJ : TasksJ s)
    (hactor : a.actor = some actor) (hruns : s.runs (holderTask actor) = true)
    (hstep : Monitor.step sd s.monitor a = some monitor) :
    TasksJ ⟨s.wifi, monitor⟩ ∧ (HolderNotSuspended s → HolderNotSuspended ⟨s.wifi, monitor⟩) := by
  have hrunning : (s.wifi.task (holderTask actor)).started = true ∧
      (s.wifi.task (holderTask actor)).suspended = false := by
    simpa [Tasks.runs] using hruns
  have hholder : HolderInSection monitor := hJ.holder.step hstep
  have hother : ∀ h, h ≠ actor → monitor.inSection h = s.monitor.inSection h := by
    intro h hne
    apply Monitor.inSection_step_other hstep
    rw [hactor]
    exact fun heq => hne (Option.some.inj heq).symm
  refine ⟨⟨hholder, ?_⟩, ?_⟩
  · intro h hstarted
    have hne : h ≠ actor := by
      intro heq
      subst heq
      exact Bool.noConfusion (hstarted.symm.trans hrunning.1)
    exact (hother h hne).trans (hJ.unstarted h hstarted)
  · intro hP h hholds
    by_cases heq : h = actor
    · subst heq
      exact hrunning.2
    · have hin : s.monitor.inSection h = true :=
        (hother h heq).symm.trans ((hholder h).mp hholds)
      exact hP h ((hJ.holder h).mpr hin)

/-- One step of any of the tasks. -/
theorem tasksStep_spec {sd : WifiSocketId → Int} {s s' : Tasks} {a : TasksAction}
    (hJ : TasksJ s) (hstep : tasksStep sd s a = some s') :
    TasksJ s' ∧ (HolderNotSuspended s → (HolderNotSuspended s' ↔ SuspendsOutside s a)) := by
  cases a with
  | wifi a =>
      simp only [tasksStep] at hstep
      split at hstep
      · cases hstep
      · obtain ⟨wifi, hwifi, rfl⟩ := Option.map_eq_some_iff.mp hstep
        exact wifi_step_spec hJ hwifi
  | monitor a =>
      simp only [tasksStep] at hstep
      split at hstep
      · cases hstep
      · rename_i actor hactor
        split at hstep
        · rename_i hruns
          obtain ⟨monitor, hmonitor, rfl⟩ := Option.map_eq_some_iff.mp hstep
          obtain ⟨hJ', hP'⟩ := monitor_step_spec hJ hactor hruns hmonitor
          exact ⟨hJ', fun hP => iff_of_true (hP' hP) trivial⟩
        · cases hstep

/-- Along any interleaving of `wifi_task`, `select_task` and the clients, the task that holds
`network_monitor_mutex` is never suspended precisely if every `vTaskSuspend` of `wifi_task`
finds its target outside the four sections between a take and a give of the mutex. -/
theorem holder_not_suspended_iff (sd : WifiSocketId → Int) (actions : List TasksAction) :
    (tasks sd).Always HolderNotSuspended Tasks.start actions ↔
      (tasks sd).Guarded SuspendsOutside Tasks.start actions := by
  apply Machine.always_iff_guarded (J := TasksJ) ?_ ?_ tasksJ_start ?_
  · exact fun _ _ _ hJ hstep => (tasksStep_spec hJ hstep).1
  · exact fun _ _ _ hJ hP hstep => (tasksStep_spec hJ hstep).2 hP
  · intro h hholds
    cases hholds

/-- `select_task` and the clients take a step, or start, only while `wifi_task` waits with
nothing to handle: it has the higher priority. -/
def HigherPriority (s : Tasks) : TasksAction → Prop
  | .wifi (.taskStart _) => s.wifi.pc = .waiting ∧ s.wifi.notification.received = false
  | .wifi _ => True
  | .monitor _ => s.wifi.pc = .waiting ∧ s.wifi.notification.received = false

instance (s : Tasks) : ∀ a : TasksAction, Decidable (HigherPriority s a)
  | .wifi (.taskStart _) => inferInstanceAs (Decidable (_ ∧ _))
  | .wifi (.wlan _) | .wifi (.netApp _) | .wifi .timerExpiry | .wifi .waitTimeout
  | .wifi (.task _) => .isTrue trivial
  | .monitor _ => inferInstanceAs (Decidable (_ ∧ _))

/-- Some steps of `wifi_task`; nothing is requested in them. -/
def wifiSteps (n : Nat) : List TasksAction := List.replicate n (.wifi (.task default))

/-- A step of `select_task` at which nothing is ready. -/
def selectStep : TasksAction := .monitor (.task ⟨0, 0, fun _ => 0#32⟩)

/-- The station gets an address, `select_task` is resumed and takes the mutex for its scan;
then the station is disconnected, and `wifi_task` suspends it there. -/
def disconnectDuringScan : List TasksAction :=
  wifiSteps 2 ++ [.wifi (.taskStart .monitor), .wifi (.netApp .ipv4Acquired)] ++
    wifiSteps 5 ++ [selectStep, selectStep, .wifi (.wlan (some .disconnect))] ++ wifiSteps 5

/-- The holder of the mutex is suspended, although `wifi_task` has the higher priority
throughout. -/
theorem select_task_suspended_in_scan :
    ¬ ∀ (sd : WifiSocketId → Int) (actions : List TasksAction),
      (tasks sd).Guarded HigherPriority Tasks.start actions →
        (tasks sd).Always HolderNotSuspended Tasks.start actions := by
  intro h
  have halways := h (fun _ => 0) disconnectDuringScan (by decide)
  exact absurd halways (by decide)

end Uiso.Wifi
