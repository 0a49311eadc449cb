/-
  Monitor/SelectStart.lean --- the calls of `sl_Select` as calls that have a beginning.

  In Monitor/Task.lean a call of `sl_Select` is one step, in which it returns.  Here its
  start is a step of its own: between the end of the scan and this step, and between this
  step and the return, the clients may do anything.  The state also keeps what the last
  scan had before it, the time and the deadlines; `Consistent` says that the sets of
  `sl_Select` belong to these.
-/
import Uiso.Monitor.Scan

set_option autoImplicit false

namespace Uiso.Monitor

open Uiso.Foundation
open Uiso.Network

variable {ι : Type}

/-! ## The machine -/

/-- The time of a scan, and the deadlines it starts with. -/
structure Snapshot where
  now : UInt32
  deadline : Deadlines

/-- The monitor, what its last scan started with, and whether a call of `sl_Select` is under
way. -/
structure Watch (ι : Type) where
  monitor : State ι
  scan : Snapshot
  selecting : Bool

/-- After `create_network_mediator`. -/
def Watch.init : Watch ι := ⟨.init, ⟨0, fun _ _ => 0⟩, false⟩

/-- A step of the monitor or of a client, or the start of `sl_Select`. -/
inductive WatchAction (ι : Type) where
  | monitor (a : Action ι)
  | startSelect

/-- The task is at its call of `sl_Select`. -/
def TaskPc.atSelect : TaskPc → Bool
  | .select _ => true
  | _ => false

/-- What the last scan started with, after a step: the scan starts when the task takes the
mutex. -/
def nextScan (w : Watch ι) (a : Action ι) : Snapshot :=
  match a, w.monitor.task with
  | .task _, .lock now => ⟨now, w.monitor.deadline⟩
  | _, _ => w.scan

variable [DecidableEq ι]

/-- One step.  `sl_Select` returns only when it has been called. -/
def watchStep (sd : WifiSocketId → Int) (w : Watch ι) : WatchAction ι → Option (Watch ι)
  | .monitor a =>
      if a.isTask && w.monitor.task.atSelect && !w.selecting then none
      else
        (Monitor.step sd w.monitor a).map fun s =>
          { monitor := s, scan := nextScan w a, selecting := w.selecting && !a.isTask }
  | .startSelect =>
      if w.monitor.halted || !w.monitor.task.atSelect || w.selecting then none
      else some { w with selecting := true }

/-- All interleavings. -/
def watchMachine (sd : WifiSocketId → Int) : Machine (Watch ι) (WatchAction ι) := ⟨watchStep sd⟩

section Steps

variable {sd : WifiSocketId → Int} {w w' : Watch ι}

/-- A step that is not the start of `sl_Select` is a step of the monitor. -/
theorem watchStep_monitor {a : Action ι} (h : watchStep sd w (.monitor a) = some w') :
    Monitor.step sd w.monitor a = some w'.monitor ∧ w'.scan = nextScan w a := by
  rw [watchStep] at h
  split at h
  · cases h
  · obtain ⟨s, hstep, rfl⟩ := Option.map_eq_some_iff.mp h
    exact ⟨hstep, rfl⟩

/-- The start of `sl_Select` changes nothing in the monitor. -/
theorem watchStep_startSelect (h : watchStep sd w .startSelect = some w') :
    w'.monitor = w.monitor ∧ w'.scan = w.scan := by
  rw [watchStep] at h
  split at h
  · cases h
  · obtain rfl := Option.some.inj h
    exact ⟨rfl, rfl⟩

/-- The step of the monitor in a step, if there is one. -/
def WatchAction.toAction : WatchAction ι → Option (Action ι)
  | .monitor a => some a
  | .startSelect => none

/-- Without the starts of `sl_Select`, a run is a run of the monitor. -/
theorem run_toAction {as : List (WatchAction ι)} (h : (watchMachine sd).run w as = some w') :
    (machine sd).run w.monitor (as.filterMap WatchAction.toAction) = some w'.monitor := by
  induction as generalizing w with
  | nil =>
      obtain rfl : w = w' := by simpa using h
      rfl
  | cons a as ih =>
      obtain ⟨v, hstep, hrest⟩ := Machine.run_uncons h
      cases a with
      | monitor a =>
          have hmonitor : (machine sd).step w.monitor a = some v.monitor :=
            (watchStep_monitor hstep).1
          show (machine sd).run w.monitor (a :: as.filterMap WatchAction.toAction) = _
          rw [Machine.run, hmonitor]
          exact ih hrest
      | startSelect =>
          have hstart : watchStep sd w .startSelect = some v := hstep
          have hsame : v.monitor = w.monitor := (watchStep_startSelect hstart).1
          show (machine sd).run w.monitor (as.filterMap WatchAction.toAction) = _
          rw [← hsame]
          exact ih hrest

end Steps

/-! ## What the sets belong to -/

/-- From the first round of the scan to the give of the mutex. -/
def TaskPc.scanning : TaskPc → Bool
  | .scan _ _ _ => true
  | .unlock _ => true
  | _ => false

/-- The scan works on the deadlines it started with, and the sets of `sl_Select` are what it
has collected of them. -/
structure Consistent (sd : WifiSocketId → Int) (w : Watch ι) : Prop where
  held : HolderInSection w.monitor
  scanning : w.monitor.task.scanning = true →
    ∃ n, StepsLeft sd w.scan.now w.scan.deadline w.monitor n
  collected : ∀ sel, w.monitor.task = .select sel →
    Collects sd w.scan.now w.scan.deadline Set.univ sel

omit [DecidableEq ι] in
theorem consistent_init (sd : WifiSocketId → Int) : Consistent sd (Watch.init : Watch ι) where
  held := holderInSection_init
  scanning := fun h => by cases h
  collected := fun _ h => by cases h

omit [DecidableEq ι] in
/-- At the end of the scan all deadlines are collected. -/
theorem StepsLeft.collects {sd : WifiSocketId → Int} {now : UInt32} {deadline : Deadlines}
    {s : State ι} {n : Nat} {sel : Selection} (h : StepsLeft sd now deadline s n)
    (htask : s.task = .unlock sel) : Collects sd now deadline Set.univ sel := by
  cases n with
  | zero =>
      obtain ⟨sel', htask', hsel, -⟩ := h
      rw [htask] at htask'
      cases htask'
      exact hsel
  | succ n =>
      obtain ⟨rest, sel', htask', -⟩ := h
      rw [htask] at htask'
      cases htask'

section Invariant

variable {sd : WifiSocketId → Int} {w : Watch ι} {s' : State ι}

/-- A step that is none of the task's leaves the task where it is, or starts it. -/
theorem task_of_others {s : State ι} {a : Action ι} (hstep : Monitor.step sd s a = some s')
    (hother : a.isTask = false) : s'.task = s.task ∨ s'.task = .start := by
  cases (step_move hstep).2 with
  | call c q hmove =>
      obtain ⟨_, rfl⟩ := callStep_eq hmove
      exact .inl rfl
  | client c now hmove => exact .inl (by cases clientStep_move hmove <;> rfl)
  | timeout c hmove =>
      obtain ⟨q, _, _, rfl⟩ := timeoutStep_eq hmove
      exact .inl rfl
  | task env hmove => cases hother
  | resume hmove =>
      rw [resumeStep_eq hmove]
      exact .inr rfl

/-- The steps of the clients leave the scan and its sets alone. -/
theorem Consistent.of_others {a : Action ι} (h : Consistent sd w)
    (hstep : Monitor.step sd w.monitor a = some s') (hother : a.isTask = false)
    (selecting : Bool) : Consistent sd ⟨s', w.scan, selecting⟩ where
  held := h.held.step hstep
  scanning := by
    intro hscanning
    rcases task_of_others hstep hother with hsame | hstart
    · have hbefore : w.monitor.task.scanning = true := hsame ▸ hscanning
      obtain ⟨n, hsteps⟩ := h.scanning hbefore
      obtain ⟨hdeadline, -⟩ := deadline_of_others h.held hsteps.inSection hstep hother
      exact ⟨n, hsteps.congr hdeadline hsame⟩
    · rw [hstart] at hscanning
      cases hscanning
  collected := by
    intro sel hselect
    rcases task_of_others hstep hother with hsame | hstart
    · exact h.collected sel (hsame ▸ hselect)
    · rw [hstart] at hselect
      cases hselect

omit [DecidableEq ι] in
/-- Outside the scan and `sl_Select` there is nothing to keep. -/
theorem consistent_of_task (hheld : HolderInSection s') {scan : Snapshot} {selecting : Bool}
    (hscanning : s'.task.scanning = false) (hselect : s'.task.atSelect = false) :
    Consistent sd ⟨s', scan, selecting⟩ where
  held := hheld
  scanning := fun h => Bool.noConfusion (hscanning.symm.trans h)
  collected := by
    intro sel h
    rw [h] at hselect
    cases hselect

omit [DecidableEq ι] in
/-- A step inside the scan. -/
theorem Consistent.stepsLeft_of_scan {env : Env} (h : Consistent sd w) {now : UInt32}
    {rest : List WifiSocketId} {sel : Selection} (hscan : w.monitor.task = .scan now rest sel)
    (hstep : taskStep sd env w.monitor = some s') :
    ∃ n, StepsLeft sd w.scan.now w.scan.deadline s' n := by
  obtain ⟨n, hsteps⟩ := h.scanning (by rw [hscan]; rfl)
  cases n with
  | zero =>
      obtain ⟨sel', hunlock, -⟩ := hsteps
      rw [hscan] at hunlock
      cases hunlock
  | succ n => exact ⟨n, hsteps.of_taskStep hstep⟩

/-- The steps of the task. -/
theorem Consistent.of_task {env : Env} (h : Consistent sd w)
    (hstep : Monitor.step sd w.monitor (.task env) = some s') (selecting : Bool) :
    Consistent sd ⟨s', nextScan w (.task env), selecting⟩ := by
  have hheld := h.held.step hstep
  have htask := taskStep_of_step hstep
  cases taskStep_move sd htask with
  | @lock now hlock hmutex =>
      have hscan : nextScan w (.task env) = ⟨now, w.monitor.deadline⟩ := by
        simp only [nextScan, hlock]
      rw [hscan]
      refine ⟨hheld, fun _ => ⟨_, stepsLeft_start (s := { w.monitor with
        mutex := some .task, task := .scan now WifiSocketId.all .empty }) rfl⟩, ?_⟩
      intro sel hselect
      cases hselect
  | scan hscan =>
      have hsame : nextScan w (.task env) = w.scan := by simp only [nextScan, hscan]
      rw [hsame]
      exact ⟨hheld, fun _ => h.stepsLeft_of_scan hscan htask, fun _ h => by cases h⟩
  | scanned hscan =>
      have hsame : nextScan w (.task env) = w.scan := by simp only [nextScan, hscan]
      rw [hsame]
      exact ⟨hheld, fun _ => h.stepsLeft_of_scan hscan htask, fun _ h => by cases h⟩
  | @collected sel hunlock hptr =>
      have hsame : nextScan w (.task env) = w.scan := by simp only [nextScan, hunlock]
      obtain ⟨n, hsteps⟩ := h.scanning (by rw [hunlock]; rfl)
      rw [hsame]
      refine ⟨hheld, fun hscanning => Bool.noConfusion hscanning, fun sel' hselect => ?_⟩
      obtain rfl : sel = sel' := TaskPc.select.inj hselect
      exact hsteps.collects hunlock
  | _ => exact consistent_of_task hheld rfl rfl

/-- Every step keeps the sets what the scan has collected. -/
theorem Consistent.step {w' : Watch ι} {a : WatchAction ι} (h : Consistent sd w)
    (hstep : watchStep sd w a = some w') : Consistent sd w' := by
  obtain ⟨s', scan', selecting'⟩ := w'
  cases a with
  | startSelect =>
      obtain ⟨rfl, rfl⟩ := watchStep_startSelect hstep
      exact ⟨h.held, h.scanning, h.collected⟩
  | monitor a =>
      obtain ⟨hmonitor, rfl⟩ := watchStep_monitor hstep
      cases hother : a.isTask with
      | false =>
          have hsame : nextScan w a = w.scan := by
            cases a with
            | task env => cases hother
            | _ => rfl
          rw [hsame]
          exact h.of_others hmonitor hother selecting'
      | true =>
          obtain ⟨env, rfl⟩ := Action.eq_task hother
          exact h.of_task hmonitor selecting'

end Invariant

end Uiso.Monitor
