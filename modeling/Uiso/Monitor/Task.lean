/-
  Monitor/Task.lean --- the network monitor: `select_task` and the clients that
  wait for their sockets with `enqueue_select_rx` and `enqueue_select_tx`.

  Clients and task share the deadlines of the contexts, the binary semaphores
  (`signal`), `network_monitor_mutex` and the notification of the task.  A step
  is one access to shared state: one kernel call, or the body of one round of a
  loop under the mutex.  Each client has a program counter, so a run is any
  interleaving of any number of calls.

  `sd` gives the sockets of the contexts, which stay what they are during a run.
  Times, and what `sl_Select` reports, come from outside.

  `announced` and `reported` are there for the statements only.  A client is
  announced when `sl_Select` reports its socket readable after it has registered
  its deadline, and reported when the second pass then gives its signal.
-/
import Uiso.Foundation.Machine
import Uiso.Network.Context
import Uiso.Rtos.Kernel
import Mathlib.Logic.Function.Basic

set_option autoImplicit false

namespace Uiso.Monitor

open Uiso.Foundation
open Uiso.Network
open Uiso.Rtos

/-! ## Clients -/

/-- What a client waits for. -/
inductive Dir where
  | rx
  | tx
  deriving DecidableEq, Repr

/-- A call of `enqueue_select_rx` or `enqueue_select_tx`. -/
structure Wait where
  dir : Dir
  id : WifiSocketId
  timeout : UInt32
  deriving DecidableEq, Repr

/-- Where a client is in its call.  From `unlock` to `notify` it carries the
deadline it has stored. -/
inductive ClientPc where
  | idle
  /-- `xSemaphoreTake(network_monitor_mutex, portMAX_DELAY)` -/
  | lock (q : Wait)
  /-- the deadline is written -/
  | store (q : Wait)
  /-- `xSemaphoreGive(network_monitor_mutex)` -/
  | unlock (q : Wait) (deadline : UInt32)
  /-- `xSemaphoreTake(signal, 0)` -/
  | drain (q : Wait) (deadline : UInt32)
  /-- `xTaskNotifyIndexed(network_monitor_task_handle, 0, 1, eIncrement)` -/
  | notify (q : Wait) (deadline : UInt32)
  /-- `xSemaphoreTake(signal, 1000 * (timeout_s + 2))` -/
  | wait (q : Wait)
  | returned (q : Wait) (result : Int)
  deriving DecidableEq, Repr

/-- The deadline a client has registered without having notified the task. -/
def ClientPc.registered : ClientPc → Option (Wait × UInt32)
  | .unlock q deadline => some (q, deadline)
  | .drain q deadline => some (q, deadline)
  | .notify q deadline => some (q, deadline)
  | _ => none

/-- The call of a client that has registered its deadline and not returned. -/
def ClientPc.pending : ClientPc → Option Wait
  | .unlock q _ => some q
  | .drain q _ => some q
  | .notify q _ => some q
  | .wait q => some q
  | _ => none

/-! ## The task -/

/-- `MONITOR_MAX_RESPONSE_S` -/
def monitorMaxResponseS : UInt32 := 2

/-- The bit of a socket in an `fd_set`: `1 << (fd & BSD_SOCKET_ID_MASK)`. -/
def fdBit (sd : Int) : BitVec 32 := 1#32 <<< (sd.toNat % 16)

/-- `FD_ISSET` -/
def fdIsSet (sd : Int) (set : BitVec 32) : Bool := test set (fdBit sd)

/-- What the scan collects: the two sets, whether their pointers are set, and the
shortest timeout. -/
structure Selection where
  set : Dir → BitVec 32
  ptr : Dir → Bool
  timeoutMin : UInt32

/-- At the top of the loop. -/
def Selection.empty : Selection := ⟨fun _ => 0#32, fun _ => false, monitorMaxResponseS⟩

/-- `FD_SET`, and the pointer. -/
def Selection.add (sel : Selection) (dir : Dir) (sd : Int) : Selection :=
  { sel with
    set := Function.update sel.set dir (sel.set dir ||| fdBit sd)
    ptr := Function.update sel.ptr dir true }

/-- The scan of one deadline: kept and collected while it is not over, or over
by a second; else cleared. -/
def scanDeadline (now : UInt32) (sd : Int) (dir : Dir) (deadline : UInt32) (sel : Selection) :
    UInt32 × Selection :=
  if deadline = 0 then (deadline, sel)
  else if now ≤ deadline then
    let sel' := sel.add dir sd
    (deadline,
      if deadline - now < sel.timeoutMin then { sel' with timeoutMin := deadline - now } else sel')
  else if deadline + 1 = now then (deadline, { sel.add dir sd with timeoutMin := 0 })
  else (0, sel)

/-- What `sl_Select` gave: the pointers, and the sets it wrote. -/
structure Ready where
  ptr : Dir → Bool
  set : Dir → BitVec 32

/-- Where `select_task` is. -/
inductive TaskPc where
  /-- `vTaskSuspend(NULL)` before the loop -/
  | suspended
  | start
  | lock (now : UInt32)
  | scan (now : UInt32) (rest : List WifiSocketId) (sel : Selection)
  | unlock (sel : Selection)
  | select (sel : Selection)
  | relock (ready : Ready)
  | rxPass (ready : Ready) (rest : List WifiSocketId)
  | txPass (ready : Ready) (rest : List WifiSocketId)
  | unlockAgain
  /-- `xTaskGenericNotifyWait` -/
  | waiting

/-- Who holds `network_monitor_mutex`. -/
inductive Holder (ι : Type) where
  | task
  | client (c : ι)
  deriving DecidableEq, Repr

/-! ## The shared state -/

variable {ι : Type}

/-- The monitor with its clients. -/
structure State (ι : Type) where
  deadline : Dir → WifiSocketId → UInt32
  /-- whether the binary semaphore can be taken -/
  signal : Dir → WifiSocketId → Bool
  mutex : Option (Holder ι)
  notification : Notification
  task : TaskPc
  client : ι → ClientPc
  /-- the task has tripped over a null semaphore handle: nothing runs any more -/
  halted : Bool
  announced : ι → Bool
  reported : ι → Bool

namespace State

/-- After `create_network_mediator`. -/
def init : State ι where
  deadline := fun _ _ => 0
  signal := fun _ _ => false
  mutex := none
  notification := .none
  task := .suspended
  client := fun _ => .idle
  halted := false
  announced := fun _ => false
  reported := fun _ => false

/-- Write a deadline. -/
def setDeadline (s : State ι) (dir : Dir) (id : WifiSocketId) (deadline : UInt32) : State ι :=
  { s with
    deadline := Function.update s.deadline dir (Function.update (s.deadline dir) id deadline) }

/-- Give or take a signal. -/
def setSignal (s : State ι) (dir : Dir) (id : WifiSocketId) (value : Bool) : State ι :=
  { s with signal := Function.update s.signal dir (Function.update (s.signal dir) id value) }

@[simp] theorem setDeadline_same (s : State ι) (dir : Dir) (id : WifiSocketId)
    (deadline : UInt32) : (s.setDeadline dir id deadline).deadline dir id = deadline := by
  simp [setDeadline]

theorem setDeadline_other (s : State ι) {dir dir' : Dir} {id id' : WifiSocketId}
    (deadline : UInt32) (h : ¬(dir' = dir ∧ id' = id)) :
    (s.setDeadline dir id deadline).deadline dir' id' = s.deadline dir' id' := by
  by_cases hdir : dir' = dir
  · subst hdir
    have hid : id' ≠ id := fun hid => h ⟨rfl, hid⟩
    simp [setDeadline, hid]
  · simp [setDeadline, hdir]

@[simp] theorem setSignal_same (s : State ι) (dir : Dir) (id : WifiSocketId) (value : Bool) :
    (s.setSignal dir id value).signal dir id = value := by
  simp [setSignal]

theorem setSignal_other (s : State ι) {dir dir' : Dir} {id id' : WifiSocketId}
    (value : Bool) (h : ¬(dir' = dir ∧ id' = id)) :
    (s.setSignal dir id value).signal dir' id' = s.signal dir' id' := by
  by_cases hdir : dir' = dir
  · subst hdir
    have hid : id' ≠ id := fun hid => h ⟨rfl, hid⟩
    simp [setSignal, hid]
  · simp [setSignal, hdir]

end State

/-- What comes from outside in a step of the task: the time, and the answer of
`sl_Select`. -/
structure Env where
  now : UInt32
  result : Int
  set : Dir → BitVec 32

section Steps

variable (sd : WifiSocketId → Int)

/-- The body of the first loop, for one context. -/
def scanContext (now : UInt32) (id : WifiSocketId) (sel : Selection) (s : State ι) :
    Selection × State ι :=
  if 0 < sd id then
    let rx := scanDeadline now (sd id) .rx (s.deadline .rx id) sel
    let tx := scanDeadline now (sd id) .tx (s.deadline .tx id) rx.2
    (tx.2, (s.setDeadline .rx id rx.1).setDeadline .tx id tx.1)
  else (sel, s)

/-- The scan writes deadlines and nothing else. -/
theorem scanContext_frame (now : UInt32) (id : WifiSocketId) (sel : Selection) (s : State ι) :
    ∃ deadline, (scanContext sd now id sel s).2 = { s with deadline := deadline } := by
  unfold scanContext
  split
  · exact ⟨_, rfl⟩
  · exact ⟨_, rfl⟩

/-- The clients that `sl_Select` announces. -/
def announce (ready : Ready) (s : State ι) (c : ι) : Bool :=
  s.announced c ||
    match (s.client c).pending with
    | some q => q.dir == .rx && ready.ptr .rx && decide (0 < sd q.id) &&
        fdIsSet (sd q.id) (ready.set .rx)
    | none => false

/-- The clients that the second pass reports when it gives the signal of `id`. -/
def report (id : WifiSocketId) (s : State ι) (c : ι) : Bool :=
  s.reported c ||
    match (s.client c).pending with
    | some q => q.dir == .rx && q.id == id && s.announced c
    | none => false

/-- The body of the second loop's read part. -/
def passRx (ready : Ready) (id : WifiSocketId) (s : State ι) : State ι :=
  if 0 < sd id ∧ fdIsSet (sd id) (ready.set .rx) = true then
    { (s.setDeadline .rx id 0).setSignal .rx id true with reported := report id s }
  else s

/-- The body of its write part.  The semaphore it gives is
`ctx->tx_wait_deadline_s`, which it has just set to zero: a null handle. -/
def passTx (ready : Ready) (id : WifiSocketId) (s : State ι) : State ι :=
  if 0 < sd id ∧ fdIsSet (sd id) (ready.set .tx) = true then
    { s.setDeadline .tx id 0 with halted := true }
  else s

/-- The contexts a pass visits. -/
def passOver (ptr : Bool) : List WifiSocketId := if ptr then WifiSocketId.all else []

/-- One step of `select_task`. -/
def taskStep (env : Env) (s : State ι) : Option (State ι) :=
  match s.task with
  | .suspended => none
  | .start => some { s with task := .lock env.now }
  | .lock now =>
      match s.mutex with
      | none => some { s with mutex := some .task, task := .scan now WifiSocketId.all .empty }
      | some _ => none
  | .scan now (id :: rest) sel =>
      let scanned := scanContext sd now id sel s
      some { scanned.2 with task := .scan now rest scanned.1 }
  | .scan _ [] sel => some { s with task := .unlock sel }
  | .unlock sel =>
      some { s with
        mutex := none
        task := if sel.ptr .rx || sel.ptr .tx then .select sel else .waiting }
  | .select sel =>
      if 0 < env.result then
        some { s with
          task := .relock ⟨sel.ptr, env.set⟩
          announced := announce sd ⟨sel.ptr, env.set⟩ s }
      else some { s with task := .start }
  | .relock ready =>
      match s.mutex with
      | none =>
          some { s with mutex := some .task, task := .rxPass ready (passOver (ready.ptr .rx)) }
      | some _ => none
  | .rxPass ready (id :: rest) => some { passRx sd ready id s with task := .rxPass ready rest }
  | .rxPass ready [] => some { s with task := .txPass ready (passOver (ready.ptr .tx)) }
  | .txPass ready (id :: rest) => some { passTx sd ready id s with task := .txPass ready rest }
  | .txPass _ [] => some { s with task := .unlockAgain }
  | .unlockAgain => some { s with mutex := none, task := .start }
  | .waiting =>
      if s.notification.received = true then
        some { s with
          notification := s.notification.leaveWait (BitVec.allOnes 32), task := .start }
      else none

/-- What a step of the task does, by the place it is taken in. -/
inductive TaskMove (env : Env) (s : State ι) : State ι → Prop where
  | start (htask : s.task = .start) : TaskMove env s { s with task := .lock env.now }
  | lock {now : UInt32} (htask : s.task = .lock now) (hmutex : s.mutex = none) :
      TaskMove env s
        { s with mutex := some .task, task := .scan now WifiSocketId.all .empty }
  | scan {now : UInt32} {id : WifiSocketId} {rest : List WifiSocketId} {sel : Selection}
      (htask : s.task = .scan now (id :: rest) sel) :
      TaskMove env s
        { (scanContext sd now id sel s).2 with
          task := .scan now rest (scanContext sd now id sel s).1 }
  | scanned {now : UInt32} {sel : Selection} (htask : s.task = .scan now [] sel) :
      TaskMove env s { s with task := .unlock sel }
  | collected {sel : Selection} (htask : s.task = .unlock sel)
      (hptr : (sel.ptr .rx || sel.ptr .tx) = true) :
      TaskMove env s { s with mutex := none, task := .select sel }
  | sleep {sel : Selection} (htask : s.task = .unlock sel)
      (hptr : (sel.ptr .rx || sel.ptr .tx) = false) :
      TaskMove env s { s with mutex := none, task := .waiting }
  | select {sel : Selection} (htask : s.task = .select sel) (hresult : 0 < env.result) :
      TaskMove env s
        { s with
          task := .relock ⟨sel.ptr, env.set⟩
          announced := announce sd ⟨sel.ptr, env.set⟩ s }
  | selectNone {sel : Selection} (htask : s.task = .select sel) (hresult : ¬0 < env.result) :
      TaskMove env s { s with task := .start }
  | relock {ready : Ready} (htask : s.task = .relock ready) (hmutex : s.mutex = none) :
      TaskMove env s
        { s with mutex := some .task, task := .rxPass ready (passOver (ready.ptr .rx)) }
  | rxPass {ready : Ready} {id : WifiSocketId} {rest : List WifiSocketId}
      (htask : s.task = .rxPass ready (id :: rest)) :
      TaskMove env s { passRx sd ready id s with task := .rxPass ready rest }
  | rxPassed {ready : Ready} (htask : s.task = .rxPass ready []) :
      TaskMove env s { s with task := .txPass ready (passOver (ready.ptr .tx)) }
  | txPass {ready : Ready} {id : WifiSocketId} {rest : List WifiSocketId}
      (htask : s.task = .txPass ready (id :: rest)) :
      TaskMove env s { passTx sd ready id s with task := .txPass ready rest }
  | txPassed {ready : Ready} (htask : s.task = .txPass ready []) :
      TaskMove env s { s with task := .unlockAgain }
  | unlockAgain (htask : s.task = .unlockAgain) :
      TaskMove env s { s with mutex := none, task := .start }
  | wake (htask : s.task = .waiting) (hreceived : s.notification.received = true) :
      TaskMove env s
        { s with
          notification := s.notification.leaveWait (BitVec.allOnes 32), task := .start }

/-- Every step of the task is one of these. -/
theorem taskStep_move {env : Env} {s s' : State ι} (h : taskStep sd env s = some s') :
    TaskMove sd env s s' := by
  cases htask : s.task with
  | suspended => simp [taskStep, htask] at h
  | start =>
      simp only [taskStep, htask, Option.some.injEq] at h
      exact h ▸ .start htask
  | lock now =>
      cases hmutex : s.mutex with
      | some holder => simp [taskStep, htask, hmutex] at h
      | none =>
          simp only [taskStep, htask, hmutex, Option.some.injEq] at h
          exact h ▸ .lock htask hmutex
  | scan now rest sel =>
      cases rest with
      | cons id rest =>
          simp only [taskStep, htask, Option.some.injEq] at h
          exact h ▸ .scan htask
      | nil =>
          simp only [taskStep, htask, Option.some.injEq] at h
          exact h ▸ .scanned htask
  | unlock sel =>
      cases hptr : sel.ptr .rx || sel.ptr .tx with
      | true =>
          simp only [taskStep, htask, hptr, if_true, Option.some.injEq] at h
          exact h ▸ .collected htask hptr
      | false =>
          simp only [taskStep, htask, hptr, Bool.false_eq_true, if_false, Option.some.injEq] at h
          exact h ▸ .sleep htask hptr
  | select sel =>
      by_cases hresult : 0 < env.result
      · simp only [taskStep, htask, if_pos hresult, Option.some.injEq] at h
        exact h ▸ .select htask hresult
      · simp only [taskStep, htask, if_neg hresult, Option.some.injEq] at h
        exact h ▸ .selectNone htask hresult
  | relock ready =>
      cases hmutex : s.mutex with
      | some holder => simp [taskStep, htask, hmutex] at h
      | none =>
          simp only [taskStep, htask, hmutex, Option.some.injEq] at h
          exact h ▸ .relock htask hmutex
  | rxPass ready rest =>
      cases rest with
      | cons id rest =>
          simp only [taskStep, htask, Option.some.injEq] at h
          exact h ▸ .rxPass htask
      | nil =>
          simp only [taskStep, htask, Option.some.injEq] at h
          exact h ▸ .rxPassed htask
  | txPass ready rest =>
      cases rest with
      | cons id rest =>
          simp only [taskStep, htask, Option.some.injEq] at h
          exact h ▸ .txPass htask
      | nil =>
          simp only [taskStep, htask, Option.some.injEq] at h
          exact h ▸ .txPassed htask
  | unlockAgain =>
      simp only [taskStep, htask, Option.some.injEq] at h
      exact h ▸ .unlockAgain htask
  | waiting =>
      by_cases hreceived : s.notification.received = true
      · simp only [taskStep, htask, if_pos hreceived, Option.some.injEq] at h
        exact h ▸ .wake htask hreceived
      · simp [taskStep, htask, hreceived] at h

variable [DecidableEq ι]

/-- Move a client. -/
def State.moveTo (s : State ι) (c : ι) (pc : ClientPc) : State ι :=
  { s with client := Function.update s.client c pc }

/-- One step of a client. -/
def clientStep (c : ι) (now : UInt32) (s : State ι) : Option (State ι) :=
  match s.client c with
  | .idle => none
  | .lock q =>
      match s.mutex with
      | none => some ({ s with mutex := some (.client c) }.moveTo c (.store q))
      | some _ => none
  | .store q =>
      let deadline := now + q.timeout
      some ((s.setDeadline q.dir q.id deadline).moveTo c (.unlock q deadline))
  | .unlock q deadline => some ({ s with mutex := none }.moveTo c (.drain q deadline))
  | .drain q deadline => some ((s.setSignal q.dir q.id false).moveTo c (.notify q deadline))
  | .notify q _ =>
      some ({ s with notification := s.notification.increment }.moveTo c (.wait q))
  | .wait q =>
      if s.signal q.dir q.id = true then
        some ((s.setSignal q.dir q.id false).moveTo c (.returned q 0))
      else none
  | .returned _ _ => none

/-- What a step of a client does, by the place it is taken in. -/
inductive ClientMove (c : ι) (now : UInt32) (s : State ι) : State ι → Prop where
  | lock {q : Wait} (hpc : s.client c = .lock q) (hmutex : s.mutex = none) :
      ClientMove c now s ({ s with mutex := some (.client c) }.moveTo c (.store q))
  | store {q : Wait} (hpc : s.client c = .store q) :
      ClientMove c now s
        ((s.setDeadline q.dir q.id (now + q.timeout)).moveTo c (.unlock q (now + q.timeout)))
  | unlock {q : Wait} {deadline : UInt32} (hpc : s.client c = .unlock q deadline) :
      ClientMove c now s ({ s with mutex := none }.moveTo c (.drain q deadline))
  | drain {q : Wait} {deadline : UInt32} (hpc : s.client c = .drain q deadline) :
      ClientMove c now s ((s.setSignal q.dir q.id false).moveTo c (.notify q deadline))
  | notify {q : Wait} {deadline : UInt32} (hpc : s.client c = .notify q deadline) :
      ClientMove c now s
        ({ s with notification := s.notification.increment }.moveTo c (.wait q))
  | take {q : Wait} (hpc : s.client c = .wait q) (hsignal : s.signal q.dir q.id = true) :
      ClientMove c now s ((s.setSignal q.dir q.id false).moveTo c (.returned q 0))

/-- Every step of a client is one of these. -/
theorem clientStep_move {c : ι} {now : UInt32} {s s' : State ι}
    (h : clientStep c now s = some s') : ClientMove c now s s' := by
  cases hpc : s.client c with
  | idle => simp [clientStep, hpc] at h
  | lock q =>
      cases hmutex : s.mutex with
      | some holder => simp [clientStep, hpc, hmutex] at h
      | none =>
          simp only [clientStep, hpc, hmutex, Option.some.injEq] at h
          exact h ▸ .lock hpc hmutex
  | store q =>
      simp only [clientStep, hpc, Option.some.injEq] at h
      exact h ▸ .store hpc
  | unlock q deadline =>
      simp only [clientStep, hpc, Option.some.injEq] at h
      exact h ▸ .unlock hpc
  | drain q deadline =>
      simp only [clientStep, hpc, Option.some.injEq] at h
      exact h ▸ .drain hpc
  | notify q deadline =>
      simp only [clientStep, hpc, Option.some.injEq] at h
      exact h ▸ .notify hpc
  | wait q =>
      by_cases hsignal : s.signal q.dir q.id = true
      · simp only [clientStep, hpc, if_pos hsignal, Option.some.injEq] at h
        exact h ▸ .take hpc hsignal
      · simp [clientStep, hpc, hsignal] at h
  | returned q result => simp [clientStep, hpc] at h

/-- A client calls, when it is in no call. -/
def callStep (c : ι) (q : Wait) (s : State ι) : Option (State ι) :=
  match s.client c with
  | .idle | .returned _ _ =>
      some ({ s with
        announced := Function.update s.announced c false
        reported := Function.update s.reported c false }.moveTo c (.lock q))
  | _ => none

/-- The wait of a client times out, when its signal cannot be taken. -/
def timeoutStep (c : ι) (s : State ι) : Option (State ι) :=
  match s.client c with
  | .wait q =>
      if s.signal q.dir q.id = true then none else some (s.moveTo c (.returned q (-1)))
  | _ => none

/-- A call starts where the client is in no call, and forgets what the ghosts
say about the last one. -/
theorem callStep_eq {c : ι} {q : Wait} {s s' : State ι} (h : callStep c q s = some s') :
    (s.client c).registered = none ∧
      s' = { s with
        announced := Function.update s.announced c false
        reported := Function.update s.reported c false }.moveTo c (.lock q) := by
  cases hpc : s.client c with
  | idle =>
      simp only [callStep, hpc, Option.some.injEq] at h
      exact ⟨rfl, h.symm⟩
  | returned q' result =>
      simp only [callStep, hpc, Option.some.injEq] at h
      exact ⟨rfl, h.symm⟩
  | _ => simp [callStep, hpc] at h

/-- A wait ends without its signal only when the signal cannot be taken. -/
theorem timeoutStep_eq {c : ι} {s s' : State ι} (h : timeoutStep c s = some s') :
    ∃ q, s.client c = .wait q ∧ s.signal q.dir q.id = false ∧
      s' = s.moveTo c (.returned q (-1)) := by
  cases hpc : s.client c with
  | wait q =>
      cases hsignal : s.signal q.dir q.id with
      | true => simp [timeoutStep, hpc, hsignal] at h
      | false =>
          simp only [timeoutStep, hpc, hsignal, Bool.false_eq_true, if_false,
            Option.some.injEq] at h
          exact ⟨q, rfl, hsignal, h.symm⟩
  | _ => simp [timeoutStep, hpc] at h

/-- `wifi_task` resumes the task; a wait it was suspended in is over. -/
def resumeStep (s : State ι) : Option (State ι) :=
  match s.task with
  | .suspended | .waiting => some { s with task := .start }
  | _ => none

omit [DecidableEq ι] in
theorem resumeStep_eq {s s' : State ι} (h : resumeStep s = some s') :
    s' = { s with task := .start } := by
  unfold resumeStep at h
  split at h <;> first | exact (Option.some.inj h).symm | cases h

end Steps

/-! ## The machine -/

/-- Who takes the next step. -/
inductive Action (ι : Type) where
  | call (c : ι) (q : Wait)
  | client (c : ι) (now : UInt32)
  | timeout (c : ι)
  | task (env : Env)
  | resume

variable [DecidableEq ι]

/-- One step of the monitor or of a client. -/
def step (sd : WifiSocketId → Int) (s : State ι) (a : Action ι) : Option (State ι) :=
  if s.halted = true then none
  else
    match a with
    | .call c q => callStep c q s
    | .client c now => clientStep c now s
    | .timeout c => timeoutStep c s
    | .task env => taskStep sd env s
    | .resume => resumeStep s

/-- What a step does, by who takes it. -/
inductive StepMove (sd : WifiSocketId → Int) (s s' : State ι) : Action ι → Prop where
  | call (c : ι) (q : Wait) (hstep : callStep c q s = some s') : StepMove sd s s' (.call c q)
  | client (c : ι) (now : UInt32) (hstep : clientStep c now s = some s') :
      StepMove sd s s' (.client c now)
  | timeout (c : ι) (hstep : timeoutStep c s = some s') : StepMove sd s s' (.timeout c)
  | task (env : Env) (hstep : taskStep sd env s = some s') : StepMove sd s s' (.task env)
  | resume (hstep : resumeStep s = some s') : StepMove sd s s' .resume

/-- There are steps only while the system runs, and each is one of these. -/
theorem step_move {sd : WifiSocketId → Int} {s s' : State ι} {a : Action ι}
    (h : step sd s a = some s') : s.halted = false ∧ StepMove sd s s' a := by
  unfold step at h
  split at h
  · cases h
  · rename_i hrunning
    refine ⟨Bool.eq_false_iff.mpr hrunning, ?_⟩
    cases a with
    | call c q => exact .call c q h
    | client c now => exact .client c now h
    | timeout c => exact .timeout c h
    | task env => exact .task env h
    | resume => exact .resume h

/-- A step of the task. -/
theorem taskStep_of_step {sd : WifiSocketId → Int} {s s' : State ι} {env : Env}
    (h : step sd s (.task env) = some s') : taskStep sd env s = some s' := by
  cases (step_move h).2 with
  | task env hstep => exact hstep

/-- All interleavings. -/
def machine (sd : WifiSocketId → Int) : Machine (State ι) (Action ι) := ⟨step sd⟩

end Uiso.Monitor
