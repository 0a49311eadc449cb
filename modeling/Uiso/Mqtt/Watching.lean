/-
  Mqtt/Watching.lean --- the MQTT client and the network monitor: `NetworkConnect`
  (src/mqtt/MQTTuiso.c) and the wait of `prvMQTTEchoTask` (src/mqtt/mqtt_client.c) for data
  of the broker.

  The descriptor of the MQTT connection is in `my_socket` of a `Network`.  The monitor
  reads the descriptors it watches from the context table of network.c, which is written
  by other functions.  `enqueue_select_rx` is given `my_socket` and does not look at it.

  `NetworkConnect` looks up the address of the broker and does not look at the result; the
  address is left out.
-/
import Uiso.Monitor.SelectStart
import Uiso.Monitor.SecondPass

set_option autoImplicit false

namespace Uiso.Mqtt

open Uiso.Foundation
open Uiso.Monitor
open Uiso.Network

/-! ## The connection -/

/-- `Network` -/
structure Network where
  mySocket : Int
  deriving DecidableEq, Repr

/-- `init_network` -/
def initNetwork : Network := ⟨-1⟩

/-- The results of `sl_Socket` and `sl_Connect`. -/
structure ConnectAnswers where
  socket : Int
  connect : Int
  deriving DecidableEq, Repr

/-- The network of the client, the context table `system_sockets`, and the descriptors given
to `sl_Close`. -/
structure Device where
  network : Network
  systemSockets : WifiSocketId → NetworkCtx
  closed : List Int

/-- `NetworkConnect`: what it returns, and the device after it. -/
def networkConnect (a : ConnectAnswers) (d : Device) : Int × Device :=
  let d := { d with network := { mySocket := a.socket } }
  if d.network.mySocket < 0 then (-1, d)
  else if a.connect < 0 then (a.connect, { d with closed := d.closed ++ [d.network.mySocket] })
  else (a.connect, d)

/-- The descriptors the monitor reads. -/
def Device.sd (d : Device) (id : WifiSocketId) : Int := (d.systemSockets id).sd

/-- `NetworkConnect` stores the descriptor in the network. -/
theorem mySocket_networkConnect (a : ConnectAnswers) (d : Device) :
    (networkConnect a d).2.network.mySocket = a.socket := by
  simp only [networkConnect]
  split
  · rfl
  · split <;> rfl

/-- It leaves the table of network.c alone. -/
theorem sd_networkConnect (a : ConnectAnswers) (d : Device) :
    (networkConnect a d).2.sd = d.sd := by
  simp only [networkConnect]
  split
  · rfl
  · split <;> rfl

/-! ## The wait -/

variable {ι : Type}

/-- The client is blocked in `enqueue_select_rx(wifi_service_mqtt_socket, my_socket, t)`. -/
def Blocked (s : State ι) (c : ι) : Prop := ∃ t, s.client c = .wait ⟨.rx, .mqtt, t⟩

variable [DecidableEq ι]

/-- The next step of the client ends its call, which returns 0. -/
def ReturnsZero (sd : WifiSocketId → Int) (s : State ι) (c : ι) : Prop :=
  ∀ now, ∃ s' q, Monitor.step sd s (.client c now) = some s' ∧ s'.client c = .returned q 0

/-- The monitor watches `fd` for the client `c`.  While the client is blocked, a scan that
ends leads to `sl_Select`, with `fd` in the read set, every `sl_Select` that starts has `fd`
in its read set, and when `sl_Select` has found data on `fd`, the round of the second pass
for the MQTT context makes the call return 0. -/
def Watches (sd : WifiSocketId → Int) (fd : Int) (c : ι) (w : Watch ι) : WatchAction ι → Prop
  | .startSelect => Blocked w.monitor c → ∀ sel, w.monitor.task = .select sel →
      fdIsSet fd (sel.set .rx) = true
  | .monitor (.task env) => Blocked w.monitor c →
      ∀ s', Monitor.step sd w.monitor (.task env) = some s' →
        (∀ sel, w.monitor.task = .unlock sel →
          fdIsSet fd (sel.set .rx) = true ∧ s'.task = .select sel) ∧
        ∀ ready rest, w.monitor.task = .rxPass ready (.mqtt :: rest) →
          fdIsSet fd (ready.set .rx) = true → ReturnsZero sd s' c
  | .monitor _ => True

/-- The scan finds a context with the number of `fd` in the table, and a read deadline of it
that is over by a second at most. -/
def OnWatch (sd : WifiSocketId → Int) (fd : Int) (scan : Snapshot) : Prop :=
  ∃ id, Watched sd scan.now scan.deadline .rx id ∧ (sd id).toNat % 16 = fd.toNat % 16

/-- What it takes: while the client is blocked, the scan found `fd` on watch when it started;
and when `sl_Select` has returned `fd`, it has returned the socket of the MQTT context, or
the signal of the context is there already. -/
def InTable (sd : WifiSocketId → Int) (fd : Int) (c : ι) (w : Watch ι) : WatchAction ι → Prop
  | .startSelect => Blocked w.monitor c → OnWatch sd fd w.scan
  | .monitor (.task _) => Blocked w.monitor c →
      ((∃ sel, w.monitor.task = .unlock sel) → OnWatch sd fd w.scan) ∧
      ∀ ready rest, w.monitor.task = .rxPass ready (.mqtt :: rest) →
        fdIsSet fd (ready.set .rx) = true →
          Found sd ready .rx .mqtt ∨ w.monitor.signal .rx .mqtt = true
  | .monitor _ => True

section Steps

variable {sd : WifiSocketId → Int} {fd : Int} {c : ι} {w : Watch ι}

omit [DecidableEq ι] in
/-- The read set of a scan holds what was on watch when it started. -/
theorem fdIsSet_iff_onWatch {scan : Snapshot} {sel : Selection}
    (h : Collects sd scan.now scan.deadline Set.univ sel) (fd : Int) :
    fdIsSet fd (sel.set .rx) = true ↔ OnWatch sd fd scan := by
  rw [h.set .rx fd]
  simp only [Set.mem_univ, true_and, OnWatch]

/-- A blocked client returns 0 next if and only if its signal is there. -/
theorem returnsZero_iff {s : State ι} (hrunning : s.halted = false) (hblocked : Blocked s c) :
    ReturnsZero sd s c ↔ s.signal .rx .mqtt = true := by
  obtain ⟨t, hwait⟩ := hblocked
  constructor
  · intro h
    obtain ⟨s', q, hstep, -⟩ := h 0
    by_contra hsignal
    simp [Monitor.step, hrunning, clientStep, hwait, hsignal] at hstep
  · intro hsignal now
    obtain ⟨s', hreturns⟩ := wait_returns now hrunning hwait hsignal
    exact ⟨s', _, hreturns⟩

omit [DecidableEq ι] in
/-- The signal of the context behind its round of the second pass. -/
theorem signal_passRx (ready : Ready) (s : State ι) :
    (passRx sd ready .mqtt s).signal .rx .mqtt = true ↔
      Found sd ready .rx .mqtt ∨ s.signal .rx .mqtt = true := by
  by_cases hfound : Found sd ready .rx .mqtt
  · have hset : 0 < sd .mqtt ∧ fdIsSet (sd .mqtt) (ready.set .rx) = true := hfound
    simp only [passRx, if_pos hset]
    exact iff_of_true (State.setSignal_same ..) (.inl hfound)
  · have hround : passRx sd ready .mqtt s = s := if_neg hfound
    rw [hround, or_iff_right hfound]

/-- A step of the task watches `fd` precisely if `fd` is in the table. -/
theorem watches_task_iff (h : Consistent sd w) {env : Env} {s' : State ι}
    (hstep : Monitor.step sd w.monitor (.task env) = some s') :
    Watches sd fd c w (.monitor (.task env)) ↔ InTable sd fd c w (.monitor (.task env)) := by
  have hrunning : w.monitor.halted = false := (step_move hstep).1
  have htask : taskStep sd env w.monitor = some s' := taskStep_of_step hstep
  have hscan : ∀ sel, w.monitor.task = .unlock sel →
      (fdIsSet fd (sel.set .rx) = true ∧ s'.task = .select sel ↔ OnWatch sd fd w.scan) := by
    intro sel hunlock
    obtain ⟨n, hsteps⟩ := h.scanning (by rw [hunlock]; rfl)
    have hsel := hsteps.collects hunlock
    rw [fdIsSet_iff_onWatch hsel]
    refine and_iff_left_of_imp fun hwatch => ?_
    have hptr : sel.ptr .rx = true :=
      (hsel.ptr .rx).mpr (hwatch.imp fun id hid => ⟨Set.mem_univ _, hid.1⟩)
    simp only [taskStep, hunlock, hptr, Bool.true_or, if_true, Option.some.injEq] at htask
    rw [← htask]
  have hpass : Blocked w.monitor c → ∀ ready rest,
      w.monitor.task = .rxPass ready (.mqtt :: rest) →
        (ReturnsZero sd s' c ↔
          Found sd ready .rx .mqtt ∨ w.monitor.signal .rx .mqtt = true) := by
    intro hblocked ready rest hrx
    simp only [taskStep, hrx, Option.some.injEq] at htask
    subst htask
    have hframe : GivesRead sd ready [.mqtt] w.monitor
        { passRx sd ready .mqtt w.monitor with task := .rxPass ready rest } :=
      givesRead_passRx .mqtt (.rxPass ready rest)
    rw [returnsZero_iff (hframe.halted.trans hrunning) (by rwa [Blocked, hframe.client])]
    exact signal_passRx ready w.monitor
  constructor
  · intro hwatches hblocked
    obtain ⟨hunlock, hrx⟩ := hwatches hblocked s' hstep
    refine ⟨?_, fun ready rest htask' hfd => (hpass hblocked ready rest htask').mp ?_⟩
    · rintro ⟨sel, hsel⟩
      exact (hscan sel hsel).mp (hunlock sel hsel)
    · exact hrx ready rest htask' hfd
  · intro htable hblocked s'' hstep'
    obtain rfl : s' = s'' := Option.some.inj (hstep.symm.trans hstep')
    obtain ⟨hunlock, hrx⟩ := htable hblocked
    exact ⟨fun sel hsel => (hscan sel hsel).mpr (hunlock ⟨sel, hsel⟩),
      fun ready rest htask' hfd => (hpass hblocked ready rest htask').mpr
        (hrx ready rest htask' hfd)⟩

/-- The start of `sl_Select` likewise. -/
theorem watches_startSelect_iff (h : Consistent sd w)
    (hselect : ∃ sel, w.monitor.task = .select sel) :
    Watches sd fd c w .startSelect ↔ InTable sd fd c w .startSelect := by
  obtain ⟨sel, hsel⟩ := hselect
  have hset := fdIsSet_iff_onWatch (h.collected sel hsel) fd
  constructor
  · intro hwatches hblocked
    exact hset.mp (hwatches hblocked sel hsel)
  · intro htable hblocked sel' hsel'
    obtain rfl : sel = sel' := TaskPc.select.inj (hsel.symm.trans hsel')
    exact hset.mpr (htable hblocked)

/-- The task is at `sl_Select` when it starts. -/
theorem select_of_startSelect {w' : Watch ι} (h : watchStep sd w .startSelect = some w') :
    ∃ sel, w.monitor.task = .select sel := by
  rw [watchStep] at h
  cases htask : w.monitor.task with
  | select sel => exact ⟨sel, rfl⟩
  | _ => simp [htask, TaskPc.atSelect] at h

end Steps

/-! ## Without a descriptor in the table -/

/-- The signal of the MQTT context is not there, and no wait for it has ended with 0. -/
structure NeverSignalled (s : State ι) : Prop where
  signal : s.signal .rx .mqtt = false
  returned : ∀ c t, s.client c ≠ .returned ⟨.rx, .mqtt, t⟩ 0

section NeverSignalled

variable {sd : WifiSocketId → Int} {s s' : State ι}

omit [DecidableEq ι] in
theorem NeverSignalled.frame (h : NeverSignalled s)
    (hsignal : s'.signal .rx .mqtt = s.signal .rx .mqtt) (hclient : s'.client = s.client) :
    NeverSignalled s' :=
  ⟨hsignal.trans h.signal, by rw [hclient]; exact h.returned⟩

/-- A client moves to a place where its wait has not ended with 0. -/
theorem NeverSignalled.moveTo (h : NeverSignalled s) {c : ι} {pc : ClientPc}
    (hsignal : s'.signal .rx .mqtt = false) (hclient : s'.client = Function.update s.client c pc)
    (hpc : ∀ t, pc ≠ .returned ⟨.rx, .mqtt, t⟩ 0) : NeverSignalled s' := by
  refine ⟨hsignal, fun c' t => ?_⟩
  rw [hclient]
  by_cases hsame : c' = c
  · subst hsame
    rw [Function.update_self]
    exact hpc t
  · rw [Function.update_of_ne hsame]
    exact h.returned c' t

omit [DecidableEq ι] in
/-- Taking a signal does not give one. -/
theorem NeverSignalled.take (h : NeverSignalled s) (dir : Dir) (id : WifiSocketId) :
    (s.setSignal dir id false).signal .rx .mqtt = false := by
  by_cases hsame : Dir.rx = dir ∧ WifiSocketId.mqtt = id
  · obtain ⟨rfl, rfl⟩ := hsame
    exact State.setSignal_same ..
  · rw [State.setSignal_other _ _ hsame]
    exact h.signal

omit [DecidableEq ι] in
/-- Without a descriptor of the MQTT context, the second pass does not give its signal. -/
theorem signal_passRx_of_no_descriptor (hsd : sd .mqtt ≤ 0) (ready : Ready) (id : WifiSocketId) :
    (passRx sd ready id s).signal .rx .mqtt = s.signal .rx .mqtt := by
  unfold passRx
  split
  · rename_i hfound
    have hother : ¬(Dir.rx = Dir.rx ∧ WifiSocketId.mqtt = id) := by
      rintro ⟨-, rfl⟩
      exact absurd hfound.1 (Int.not_lt.mpr hsd)
    exact State.setSignal_other (s.setDeadline .rx id 0) true hother
  · rfl

omit [DecidableEq ι] in
theorem NeverSignalled.of_taskStep (h : NeverSignalled s) (hsd : sd .mqtt ≤ 0) {env : Env}
    (hstep : taskStep sd env s = some s') : NeverSignalled s' := by
  cases taskStep_move sd hstep with
  | scan htask =>
      obtain ⟨deadline, hframe⟩ := scanContext_frame sd _ _ _ s
      rw [hframe]
      exact h.frame rfl rfl
  | @rxPass ready id rest htask =>
      exact h.frame (signal_passRx_of_no_descriptor hsd ready id) (passRx_frame ready id s).2
  | txPass htask =>
      refine h.frame ?_ ?_
      · simp only [passTx]
        split <;> rfl
      · simp only [passTx]
        split <;> rfl
  | _ => exact h.frame rfl rfl

theorem NeverSignalled.of_clientStep (h : NeverSignalled s) {c : ι} {now : UInt32}
    (hstep : clientStep c now s = some s') : NeverSignalled s' := by
  cases clientStep_move hstep with
  | drain hpc => exact h.moveTo (h.take _ _) rfl (by simp)
  | take hpc hsignal =>
      refine h.moveTo (h.take _ _) rfl fun t hreturned => ?_
      cases hreturned
      exact Bool.noConfusion (hsignal.symm.trans h.signal)
  | _ => exact h.moveTo h.signal rfl (by simp)

theorem NeverSignalled.step (h : NeverSignalled s) (hsd : sd .mqtt ≤ 0) {a : Action ι}
    (hstep : Monitor.step sd s a = some s') : NeverSignalled s' := by
  cases (step_move hstep).2 with
  | call c q hmove =>
      obtain ⟨_, rfl⟩ := callStep_eq hmove
      exact h.moveTo h.signal rfl (by simp)
  | client c now hmove => exact h.of_clientStep hmove
  | timeout c hmove =>
      obtain ⟨q, _, _, rfl⟩ := timeoutStep_eq hmove
      exact h.moveTo h.signal rfl (by simp)
  | task env hmove => exact h.of_taskStep hsd hmove
  | resume hmove =>
      rw [resumeStep_eq hmove]
      exact h.frame rfl rfl

end NeverSignalled

/-- With the MQTT context as `initialize_socket_management` leaves it, and as `NetworkConnect`
does, no `enqueue_select_rx(wifi_service_mqtt_socket, ..)` ever returns 0. -/
theorem never_returns_zero (a : ConnectAnswers) (d : Device)
    (hinit : d.systemSockets .mqtt = initializeNetworkCtx) {as : List (WatchAction ι)}
    {w : Watch ι} (hrun : (watchMachine (networkConnect a d).2.sd).run Watch.init as = some w) :
    ∀ c t, w.monitor.client c ≠ .returned ⟨.rx, .mqtt, t⟩ 0 := by
  rw [sd_networkConnect] at hrun
  have hsd : d.sd .mqtt ≤ 0 := by
    rw [Device.sd, hinit]
    decide
  have hstart : NeverSignalled (State.init : State ι) := ⟨rfl, nofun⟩
  have halways : (machine d.sd).Always NeverSignalled State.init
      (as.filterMap WatchAction.toAction) :=
    Machine.always_of_invariant (fun _ _ _ h hstep => h.step hsd hstep) (fun _ h => h) hstart
  exact (halways.last (run_toAction hrun)).returned

/-! ## All runs -/

/-- After `NetworkConnect`, in every run: the monitor watches `my_socket` for the MQTT client if
and only if the descriptor is in the table of network.c as it was before `NetworkConnect`, with
a deadline that is pending when the scan starts. -/
theorem guarded_watches_iff_inTable (a : ConnectAnswers) (d : Device) (c : ι)
    (as : List (WatchAction ι)) :
    let d' := (networkConnect a d).2
    (watchMachine d'.sd).Guarded (Watches d'.sd d'.network.mySocket c) Watch.init as ↔
      (watchMachine d.sd).Guarded (InTable d.sd a.socket c) Watch.init as := by
  intro d'
  rw [show d'.sd = d.sd from sd_networkConnect a d,
    show d'.network.mySocket = a.socket from mySocket_networkConnect a d]
  refine Machine.guarded_iff_of_kept (J := Consistent d.sd)
    (fun w b w' hw hstep => hw.step hstep) ?_ (consistent_init d.sd)
  intro w b w' hw hstep
  cases b with
  | startSelect =>
      have hstart : watchStep d.sd w .startSelect = some w' := hstep
      exact watches_startSelect_iff hw (select_of_startSelect hstart)
  | monitor b =>
      cases b with
      | task env => exact watches_task_iff hw (watchStep_monitor hstep).1
      | _ => exact Iff.rfl

/-- The LWM2M client is connected on socket 2; the MQTT context is as
`initialize_socket_management` leaves it. -/
def lwm2mConnected : Device where
  network := initNetwork
  systemSockets := fun id =>
    if id = .lwm2m then { initializeNetworkCtx with sd := 2 } else initializeNetworkCtx
  closed := []

/-- `sl_Socket` returns 1, and `sl_Connect` succeeds. -/
def connected : ConnectAnswers := ⟨1, 0⟩

/-- Both clients wait for data, for five seconds from time 100 on; the MQTT client is `true`.
The task then scans and gives the mutex back. -/
def bothWait : List (WatchAction Bool) :=
  let steps : List (Action Bool) :=
    [.resume, .call false ⟨.rx, .lwm2m, 5⟩, .call true ⟨.rx, .mqtt, 5⟩] ++
      List.replicate 5 (.client false 100) ++ List.replicate 5 (.client true 100) ++
      List.replicate 8 (.task ⟨100, 0, fun _ => 0#32⟩)
  steps.map .monitor

/-- What the read set says of a descriptor, at the call of `sl_Select`. -/
def readSetHas (fd : Int) : TaskPc → Option Bool
  | .select sel => some (fdIsSet fd (sel.set .rx))
  | _ => none

/-- The MQTT client is blocked, and `sl_Select` starts without `my_socket` in its read set. -/
theorem not_watches_bothWait :
    (networkConnect connected lwm2mConnected).1 = 0 ∧
      ¬∀ (a : ConnectAnswers) (d : Device) (c : Bool) (as : List (WatchAction Bool)),
        let d' := (networkConnect a d).2
        (networkConnect a d).1 = 0 → 0 < d'.network.mySocket →
          (watchMachine d'.sd).Guarded (Watches d'.sd d'.network.mySocket c) Watch.init as := by
  refine ⟨rfl, fun h => ?_⟩
  have hall := h connected lwm2mConnected true (bothWait ++ [.startSelect]) rfl (by decide)
  have hend : ((watchMachine (networkConnect connected lwm2mConnected).2.sd).run Watch.init
      bothWait).map (fun w => (w.monitor.client true, readSetHas 1 w.monitor.task,
        w.monitor.halted, w.selecting)) =
      some (.wait ⟨.rx, .mqtt, 5⟩, some false, false, false) := by decide +kernel
  obtain ⟨w, hrun, hw⟩ := Option.map_eq_some_iff.mp hend
  simp only [Prod.mk.injEq] at hw
  obtain ⟨hwait, hset, hrunning, hidle⟩ := hw
  cases htask : w.monitor.task with
  | select sel =>
      have hstep : (watchMachine (networkConnect connected lwm2mConnected).2.sd).step w
          .startSelect = some { w with selecting := true } := by
        simp [watchMachine, watchStep, hrunning, htask, hidle, TaskPc.atSelect]
      have hwatches := hall.last hrun hstep ⟨5, hwait⟩ sel htask
      rw [htask] at hset
      exact Bool.noConfusion (hwatches.symm.trans (Option.some.inj hset))
  | _ =>
      rw [htask] at hset
      cases hset

end Uiso.Mqtt
