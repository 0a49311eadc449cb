/-
  Monitor/SecondPass.lean --- what `select_task` does with the sets `sl_Select`
  returns.

  The second pass has two halves, one loop each.  The read half clears the read
  deadline of each context whose socket is in the returned set, and gives the
  context's `rx_signal`.  The write half is a copy of it that gives, in place of
  `tx_signal`, the deadline it has just cleared.  That is a null handle, so the
  pass ends at the first context it finds in the write set.
-/
import Uiso.Monitor.Wakeup

set_option autoImplicit false

namespace Uiso.Monitor

open Uiso.Foundation
open Uiso.Network
open Uiso.Rtos

variable {ι : Type}

/-! ## What the pass is for -/

section Spec

variable (sd : WifiSocketId → Int) (ready : Ready)

/-- The socket of the context is in the set `sl_Select` has written. -/
def Found (dir : Dir) (id : WifiSocketId) : Prop :=
  0 < sd id ∧ fdIsSet (sd id) (ready.set dir) = true

instance (dir : Dir) (id : WifiSocketId) : Decidable (Found sd ready dir id) :=
  inferInstanceAs (Decidable (_ ∧ _))

/-- The context's socket is in a set that `sl_Select` was given and has returned. -/
def Returned (dir : Dir) (id : WifiSocketId) : Prop :=
  ready.ptr dir = true ∧ Found sd ready dir id

instance (dir : Dir) (id : WifiSocketId) : Decidable (Returned sd ready dir id) :=
  inferInstanceAs (Decidable (_ ∧ _))

/-- From `s` to `t`, the pass has served one direction: the contexts in the returned
set have their deadlines cleared and their signals given, the others keep theirs, and
a client in its wait returns 0. -/
structure Served [DecidableEq ι] (dir : Dir) (s t : State ι) : Prop where
  cleared : ∀ id, Returned sd ready dir id → t.deadline dir id = 0
  given : ∀ id, Returned sd ready dir id → t.signal dir id = true
  deadlines : ∀ id, ¬Returned sd ready dir id → t.deadline dir id = s.deadline dir id
  signals : ∀ id, ¬Returned sd ready dir id → t.signal dir id = s.signal dir id
  returns : ∀ c q now, q.dir = dir → Returned sd ready dir q.id → s.client c = .wait q →
    ∃ t', step sd t (.client c now) = some t' ∧ t'.client c = .returned q 0

/-- The steps of the task from the read half to the end of the write half. -/
def passSteps : Nat :=
  ((passOver (ready.ptr .rx)).length + 1) + ((passOver (ready.ptr .tx)).length + 1)

/-- The pass gets to its end, and has served both directions there. -/
def ServesBoth [DecidableEq ι] (env : Env) (s : State ι) : Prop :=
  ∃ t, (machine sd).run s (List.replicate (passSteps ready) (.task env)) = some t ∧
    t.task = .unlockAgain ∧ ∀ dir, Served sd ready dir s t

end Spec

/-! ## The read half -/

/-- What rounds of the read half over `ids` do, from `s` to `t`. -/
structure GivesRead (sd : WifiSocketId → Int) (ready : Ready) (ids : List WifiSocketId)
    (s t : State ι) : Prop where
  found : ∀ id ∈ ids, Found sd ready .rx id → t.deadline .rx id = 0 ∧ t.signal .rx id = true
  others : ∀ id, ¬(id ∈ ids ∧ Found sd ready .rx id) →
    t.deadline .rx id = s.deadline .rx id ∧ t.signal .rx id = s.signal .rx id
  write : t.deadline .tx = s.deadline .tx ∧ t.signal .tx = s.signal .tx
  client : t.client = s.client
  halted : t.halted = s.halted

section Read

variable {sd : WifiSocketId → Int} {ready : Ready} {s t u : State ι}

theorem givesRead_nil (task : TaskPc) : GivesRead sd ready [] s { s with task := task } where
  found := nofun
  others := fun _ _ => ⟨rfl, rfl⟩
  write := ⟨rfl, rfl⟩
  client := rfl
  halted := rfl

/-- One round. -/
theorem givesRead_passRx (id : WifiSocketId) (task : TaskPc) :
    GivesRead sd ready [id] s { passRx sd ready id s with task := task } := by
  by_cases hfound : Found sd ready .rx id
  · have hdir : ∀ id', ¬(Dir.tx = Dir.rx ∧ id' = id) := by simp
    have hset : 0 < sd id ∧ fdIsSet (sd id) (ready.set .rx) = true := hfound
    simp only [passRx, if_pos hset]
    refine ⟨?_, ?_, ⟨?_, ?_⟩, rfl, rfl⟩
    · intro id' hid' _
      obtain rfl := List.mem_singleton.mp hid'
      exact ⟨s.setDeadline_same .rx id' 0, s.setSignal_same .rx id' true⟩
    · intro id' hother
      have hne : ¬(Dir.rx = Dir.rx ∧ id' = id) := by
        rintro ⟨-, rfl⟩
        exact hother ⟨List.mem_singleton.mpr rfl, hfound⟩
      exact ⟨s.setDeadline_other 0 hne, s.setSignal_other true hne⟩
    · funext id'
      exact s.setDeadline_other 0 (hdir id')
    · funext id'
      exact s.setSignal_other true (hdir id')
  · have hround : passRx sd ready id s = s := if_neg hfound
    rw [hround]
    refine ⟨?_, fun _ _ => ⟨rfl, rfl⟩, ⟨rfl, rfl⟩, rfl, rfl⟩
    intro id' hid' hfound'
    obtain rfl := List.mem_singleton.mp hid'
    exact absurd hfound' hfound

/-- A round and the rounds after it. -/
theorem GivesRead.cons {id : WifiSocketId} {ids : List WifiSocketId}
    (hfirst : GivesRead sd ready [id] s t) (hrest : GivesRead sd ready ids t u) :
    GivesRead sd ready (id :: ids) s u where
  found := by
    intro id' hmem hfound
    by_cases hin : id' ∈ ids
    · exact hrest.found id' hin hfound
    · obtain rfl : id' = id := (List.mem_cons.mp hmem).resolve_right hin
      obtain ⟨hdeadline, hsignal⟩ := hrest.others id' fun h => hin h.1
      obtain ⟨hcleared, hgiven⟩ := hfirst.found id' (List.mem_singleton.mpr rfl) hfound
      exact ⟨hdeadline.trans hcleared, hsignal.trans hgiven⟩
  others := by
    intro id' hother
    obtain ⟨hdeadline, hsignal⟩ :=
      hrest.others id' fun h => hother ⟨List.mem_cons_of_mem _ h.1, h.2⟩
    obtain ⟨hdeadline', hsignal'⟩ :=
      hfirst.others id' fun h => hother ⟨by simp [List.mem_singleton.mp h.1], h.2⟩
    exact ⟨hdeadline.trans hdeadline', hsignal.trans hsignal'⟩
  write := ⟨hrest.write.1.trans hfirst.write.1, hrest.write.2.trans hfirst.write.2⟩
  client := hrest.client.trans hfirst.client
  halted := hrest.halted.trans hfirst.halted

variable [DecidableEq ι]

/-- A step of the task, while the system runs. -/
theorem machine_step_task (env : Env) (hrunning : s.halted = false) :
    (machine sd).step s (.task env) = taskStep sd env s := by
  simp [machine, Monitor.step, hrunning]

/-- The read half gets to its end. -/
theorem run_read (env : Env) (ids : List WifiSocketId) (hrunning : s.halted = false)
    (htask : s.task = .rxPass ready ids) :
    ∃ t, (machine sd).run s (List.replicate (ids.length + 1) (.task env)) = some t ∧
      t.task = .txPass ready (passOver (ready.ptr .tx)) ∧ GivesRead sd ready ids s t := by
  induction ids generalizing s with
  | nil =>
      have hstep : (machine sd).step s (.task env) =
          some { s with task := .txPass ready (passOver (ready.ptr .tx)) } := by
        rw [machine_step_task env hrunning]
        simp only [taskStep, htask]
      refine ⟨{ s with task := .txPass ready (passOver (ready.ptr .tx)) }, ?_, rfl,
        givesRead_nil _⟩
      simp [Machine.run, hstep]
  | cons id ids ih =>
      have hstep : (machine sd).step s (.task env) =
          some { passRx sd ready id s with task := .rxPass ready ids } := by
        rw [machine_step_task env hrunning]
        simp only [taskStep, htask]
      have hround : GivesRead sd ready [id] s
          { passRx sd ready id s with task := .rxPass ready ids } := givesRead_passRx id _
      obtain ⟨t, hrun, hend, hrest⟩ := ih (hround.halted.trans hrunning) rfl
      refine ⟨t, ?_, hend, hround.cons hrest⟩
      rw [List.length_cons, List.replicate_succ, Machine.run, hstep]
      exact hrun

/-! ## The write half -/

/-- Without a socket in the write set, the write half does nothing. -/
theorem run_write_none (env : Env) (ids : List WifiSocketId) (hrunning : s.halted = false)
    (htask : s.task = .txPass ready ids) (hnone : ∀ id ∈ ids, ¬Found sd ready .tx id) :
    (machine sd).run s (List.replicate (ids.length + 1) (.task env)) =
      some { s with task := .unlockAgain } := by
  induction ids generalizing s with
  | nil =>
      have hstep : (machine sd).step s (.task env) = some { s with task := .unlockAgain } := by
        rw [machine_step_task env hrunning]
        simp only [taskStep, htask]
      simp [Machine.run, hstep]
  | cons id ids ih =>
      have hround : passTx sd ready id s = s := if_neg (hnone id (by simp))
      have hstep : (machine sd).step s (.task env) =
          some { s with task := .txPass ready ids } := by
        rw [machine_step_task env hrunning]
        simp only [taskStep, htask, hround]
      rw [List.length_cons, List.replicate_succ, Machine.run, hstep]
      exact ih hrunning rfl fun id' hin => hnone id' (by simp [hin])

/-- With one, the write half does not get to its end. -/
theorem run_write_some (env : Env) (ids : List WifiSocketId) (hrunning : s.halted = false)
    (htask : s.task = .txPass ready ids) (hsome : ∃ id ∈ ids, Found sd ready .tx id) :
    (machine sd).run s (List.replicate (ids.length + 1) (.task env)) = none := by
  induction ids generalizing s with
  | nil =>
      obtain ⟨id, hin, -⟩ := hsome
      cases hin
  | cons id ids ih =>
      have hstep : (machine sd).step s (.task env) =
          some { passTx sd ready id s with task := .txPass ready ids } := by
        rw [machine_step_task env hrunning]
        simp only [taskStep, htask]
      rw [List.length_cons, List.replicate_succ, Machine.run, hstep]
      by_cases hfound : Found sd ready .tx id
      · -- the null handle: nothing runs after this round
        have hround : passTx sd ready id s = { s.setDeadline .tx id 0 with halted := true } :=
          if_pos hfound
        simp [hround, List.replicate_succ, Machine.run, machine, Monitor.step]
      · have hround : passTx sd ready id s = s := if_neg hfound
        rw [hround]
        refine ih hrunning rfl ?_
        obtain ⟨id', hin, hfound'⟩ := hsome
        rcases List.mem_cons.mp hin with rfl | hin
        · exact absurd hfound' hfound
        · exact ⟨id', hin, hfound'⟩

end Read

/-! ## Both halves -/

section Both

variable [DecidableEq ι] {sd : WifiSocketId → Int} {ready : Ready} {s t : State ι}

theorem mem_passOver (ptr : Bool) (id : WifiSocketId) : id ∈ passOver ptr ↔ ptr = true := by
  cases ptr with
  | true => exact iff_of_true (WifiSocketId.mem_all id) rfl
  | false => exact iff_of_false nofun nofun

/-- A client takes a signal that is there. -/
theorem wait_returns {c : ι} {q : Wait} (now : UInt32) (hrunning : t.halted = false)
    (hpc : t.client c = .wait q) (hsignal : t.signal q.dir q.id = true) :
    ∃ t', step sd t (.client c now) = some t' ∧ t'.client c = .returned q 0 := by
  refine ⟨(t.setSignal q.dir q.id false).moveTo c (.returned q 0), ?_, ?_⟩
  · simp [Monitor.step, hrunning, clientStep, hpc, hsignal]
  · simp [State.moveTo]

/-- The read half serves its direction. -/
theorem GivesRead.served (h : GivesRead sd ready (passOver (ready.ptr .rx)) s t)
    (hrunning : s.halted = false) (task : TaskPc) :
    Served sd ready .rx s { t with task := task } := by
  have hmem : ∀ id, Returned sd ready .rx id ↔
      id ∈ passOver (ready.ptr .rx) ∧ Found sd ready .rx id := fun id => by
    rw [mem_passOver]
    exact Iff.rfl
  have hfound : ∀ id, Returned sd ready .rx id →
      t.deadline .rx id = 0 ∧ t.signal .rx id = true := fun id hid =>
    h.found id ((hmem id).mp hid).1 ((hmem id).mp hid).2
  have hothers : ∀ id, ¬Returned sd ready .rx id →
      t.deadline .rx id = s.deadline .rx id ∧ t.signal .rx id = s.signal .rx id := fun id hid =>
    h.others id fun hin => hid ((hmem id).mpr hin)
  refine ⟨fun id hid => (hfound id hid).1, fun id hid => (hfound id hid).2,
    fun id hid => (hothers id hid).1, fun id hid => (hothers id hid).2, ?_⟩
  intro c q now hdir hid hwait
  refine wait_returns now (h.halted.trans hrunning) ((congrFun h.client c).trans hwait) ?_
  rw [hdir]
  exact (hfound q.id hid).2

/-- With no socket returned, a direction is served by doing nothing. -/
theorem served_of_none {dir : Dir} (hnone : ∀ id, ¬Returned sd ready dir id)
    (hdeadline : t.deadline dir = s.deadline dir) (hsignal : t.signal dir = s.signal dir) :
    Served sd ready dir s t where
  cleared := fun id hid => absurd hid (hnone id)
  given := fun id hid => absurd hid (hnone id)
  deadlines := fun id _ => congrFun hdeadline id
  signals := fun id _ => congrFun hsignal id
  returns := fun _ q _ _ hid _ => absurd hid (hnone q.id)

/-- The second pass serves both directions exactly when `sl_Select` has returned no
socket as writable. -/
theorem second_pass_serves_iff (env : Env) (ready : Ready) (s : State ι)
    (hrunning : s.halted = false) (htask : s.task = .rxPass ready (passOver (ready.ptr .rx))) :
    ServesBoth sd ready env s ↔ ∀ id, ¬Returned sd ready .tx id := by
  obtain ⟨m, hread, hwrite, hgives⟩ :
      ∃ m, (machine sd).run s
          (List.replicate ((passOver (ready.ptr .rx)).length + 1) (.task env)) = some m ∧
        m.task = .txPass ready (passOver (ready.ptr .tx)) ∧
        GivesRead sd ready (passOver (ready.ptr .rx)) s m := run_read env _ hrunning htask
  have hrunning' : m.halted = false := hgives.halted.trans hrunning
  have hrun : (machine sd).run s (List.replicate (passSteps ready) (.task env)) =
      (machine sd).run m
        (List.replicate ((passOver (ready.ptr .tx)).length + 1) (.task env)) := by
    rw [passSteps, List.replicate_add]
    exact Machine.run_append hread
  constructor
  · rintro ⟨t, hend, -⟩ id ⟨hptr, hfound⟩
    rw [hrun, run_write_some env _ hrunning' hwrite
      ⟨id, (mem_passOver _ id).mpr hptr, hfound⟩] at hend
    cases hend
  · intro hnone
    refine ⟨{ m with task := .unlockAgain }, ?_, rfl, ?_⟩
    · rw [hrun]
      exact run_write_none env _ hrunning' hwrite fun id hin hfound =>
        hnone id ⟨(mem_passOver _ id).mp hin, hfound⟩
    · intro dir
      cases dir with
      | rx => exact hgives.served hrunning _
      | tx => exact served_of_none hnone hgives.write.1 hgives.write.2

end Both

/-- `sl_Select` has found the LWM2M socket readable or writable. -/
def readyFor (dir : Dir) : Ready := ⟨fun dir' => decide (dir' = dir), fun _ => fdBit 1⟩

/-- A client waits in `enqueue_select_rx` or `enqueue_select_tx` for the LWM2M socket,
and the second pass begins. -/
def waitingFor (dir : Dir) : State Unit :=
  { State.init with
    mutex := some .task
    deadline := fun dir' id => if dir' = dir ∧ id = .lwm2m then 110 else 0
    client := fun _ => .wait ⟨dir, .lwm2m, 10⟩
    task := .rxPass (readyFor dir) (passOver ((readyFor dir).ptr .rx)) }

theorem second_pass_serves_iff_readable :
    (∀ id, ¬Returned lwm2mOnly (readyFor .rx) .tx id) ∧
      ServesBoth lwm2mOnly (readyFor .rx) ⟨100, 1, fun _ => fdBit 1⟩ (waitingFor .rx) := by
  have hnone : ∀ id, ¬Returned lwm2mOnly (readyFor .rx) .tx id := by decide
  exact ⟨hnone, (second_pass_serves_iff _ (readyFor .rx) (waitingFor .rx) rfl rfl).mpr hnone⟩

/-- A writable socket is not served: the pass does not get to its end. -/
theorem second_pass_stops_at_writable :
    ¬∀ (sd : WifiSocketId → Int) (env : Env) (ready : Ready) (s : State Unit),
      s.halted = false → s.task = .rxPass ready (passOver (ready.ptr .rx)) →
      ServesBoth sd ready env s := by
  intro h
  obtain ⟨t, hrun, -⟩ :=
    h lwm2mOnly ⟨100, 1, fun _ => fdBit 1⟩ (readyFor .tx) (waitingFor .tx) rfl rfl
  have hstops : ((machine lwm2mOnly).run (waitingFor .tx)
      (List.replicate (passSteps (readyFor .tx)) (.task ⟨100, 1, fun _ => fdBit 1⟩))).isNone =
        true := by
    decide +kernel
  rw [hrun] at hstops
  cases hstops

end Uiso.Monitor
