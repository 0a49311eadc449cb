/-
  Monitor/Scan.lean --- what the first loop of `select_task` collects.

  Each round of the loop looks at the two deadlines of a context.  A deadline that
  is set is watched while it is not over, and for one second of grace after that;
  later it is cleared.  Of the watched ones the loop keeps the sockets, in the two
  sets for `sl_Select`, and the shortest time left.

  The loop runs under `network_monitor_mutex`, so what it collects belongs to the
  deadlines it started with, whatever the clients do meanwhile.
-/
import Uiso.Monitor.Mutex
import Mathlib.Order.Bounds.Basic

set_option autoImplicit false

namespace Uiso.Monitor

open Uiso.Foundation
open Uiso.Network
open Uiso.Rtos

variable {ι : Type}

/-! ## What is to be collected -/

/-- The deadlines of the contexts. -/
abbrev Deadlines := Dir → WifiSocketId → UInt32

section Spec

variable (sd : WifiSocketId → Int) (now : UInt32) (deadline : Deadlines)

/-- The context has a socket, and a deadline that is over by a second at most. -/
def Watched (dir : Dir) (id : WifiSocketId) : Prop :=
  0 < sd id ∧ deadline dir id ≠ 0 ∧ now.toNat ≤ (deadline dir id).toNat + 1

/-- The context has a socket, and a deadline that is over by more than a second. -/
def Expired (dir : Dir) (id : WifiSocketId) : Prop :=
  0 < sd id ∧ (deadline dir id).toNat + 1 < now.toNat

instance (dir : Dir) (id : WifiSocketId) : Decidable (Watched sd now deadline dir id) :=
  inferInstanceAs (Decidable (_ ∧ _ ∧ _))

instance (dir : Dir) (id : WifiSocketId) : Decidable (Expired sd now deadline dir id) :=
  inferInstanceAs (Decidable (_ ∧ _))

/-- The seconds until a deadline; none are left in its second of grace. -/
def secondsLeft (dir : Dir) (id : WifiSocketId) : Nat := (deadline dir id).toNat - now.toNat

/-- What the timeout of `sl_Select` is the least of, once the deadlines `done` are
scanned. -/
def timeouts (done : Set (Dir × WifiSocketId)) : Set Nat :=
  insert monitorMaxResponseS.toNat
    {t | ∃ dir id, (dir, id) ∈ done ∧ Watched sd now deadline dir id ∧
      t = secondsLeft now deadline dir id}

/-- What the loop has collected of the deadlines `done`. -/
structure Collects (done : Set (Dir × WifiSocketId)) (sel : Selection) : Prop where
  set : ∀ dir fd, fdIsSet fd (sel.set dir) = true ↔
    ∃ id, (dir, id) ∈ done ∧ Watched sd now deadline dir id ∧
      (sd id).toNat % 16 = fd.toNat % 16
  ptr : ∀ dir, sel.ptr dir = true ↔ ∃ id, (dir, id) ∈ done ∧ Watched sd now deadline dir id
  timeoutMin : IsLeast (timeouts sd now deadline done) sel.timeoutMin.toNat

/-- The loop has cleared what is expired of the deadlines `done`, and left `after`. -/
structure Clears (done : Set (Dir × WifiSocketId)) (after : Deadlines) : Prop where
  scanned : ∀ dir id, (dir, id) ∈ done →
    after dir id = if Expired sd now deadline dir id then 0 else deadline dir id
  ahead : ∀ dir id, (dir, id) ∉ done → after dir id = deadline dir id

end Spec

/-! ## Sets of sockets -/

/-- Two sockets share a bit exactly when their numbers agree in the low four bits. -/
theorem fdIsSet_fdBit (a b : Int) :
    fdIsSet a (fdBit b) = true ↔ b.toNat % 16 = a.toNat % 16 := by
  have hbits : ∀ i j : Fin 16,
      test (1#32 <<< i.val) (1#32 <<< j.val) = true ↔ i.val = j.val := by decide +kernel
  exact hbits ⟨b.toNat % 16, Nat.mod_lt _ (by decide)⟩ ⟨a.toNat % 16, Nat.mod_lt _ (by decide)⟩

theorem fdIsSet_or (fd : Int) (x y : BitVec 32) :
    fdIsSet fd (x ||| y) = true ↔ fdIsSet fd x = true ∨ fdIsSet fd y = true := by
  have hdistrib : (x ||| y) &&& fdBit fd = x &&& fdBit fd ||| y &&& fdBit fd := by
    ext i hi
    simp only [BitVec.getElem_and, BitVec.getElem_or, Bool.and_or_distrib_right]
  simp only [fdIsSet, test, hdistrib, bne_iff_ne, ne_eq, BitVec.or_eq_zero_iff]
  exact Decidable.not_and_iff_not_or_not

/-! ## The scan of one deadline -/

section Deadline

variable {now deadline : UInt32} (fd : Int) (dir : Dir) (sel : Selection)

/-- A watched deadline is kept and collected. -/
theorem scanDeadline_watched (hset : deadline ≠ 0) (hnow : now.toNat ≤ deadline.toNat + 1) :
    ∃ t : UInt32, t.toNat = min (deadline.toNat - now.toNat) sel.timeoutMin.toNat ∧
      scanDeadline now fd dir deadline sel =
        (deadline, { sel.add dir fd with timeoutMin := t }) := by
  by_cases hpending : now ≤ deadline
  · have hsub : (deadline - now).toNat = deadline.toNat - now.toNat :=
      UInt32.toNat_sub_of_le _ _ hpending
    by_cases hshorter : deadline - now < sel.timeoutMin
    · refine ⟨deadline - now, ?_, ?_⟩
      · rw [UInt32.lt_iff_toNat_lt, hsub] at hshorter
        omega
      · simp only [scanDeadline, if_neg hset, if_pos hpending, if_pos hshorter]
    · refine ⟨sel.timeoutMin, ?_, ?_⟩
      · rw [UInt32.lt_iff_toNat_lt, hsub] at hshorter
        omega
      · simp only [scanDeadline, if_neg hset, if_pos hpending, if_neg hshorter]
        rfl
  · have hgrace : deadline + 1 = now := by
      rw [UInt32.le_iff_toNat_le] at hpending
      refine UInt32.toNat_inj.mp ?_
      rw [UInt32.toNat_add, UInt32.toNat_one]
      have := now.toNat_lt
      omega
    refine ⟨0, ?_, ?_⟩
    · rw [UInt32.le_iff_toNat_le] at hpending
      rw [UInt32.toNat_zero]
      omega
    · simp only [scanDeadline, if_neg hset, if_neg hpending, if_pos hgrace]

/-- A deadline that is not set, or over by more than a second, is not collected and is
then zero. -/
theorem scanDeadline_unwatched (h : deadline ≠ 0 → deadline.toNat + 1 < now.toNat) :
    scanDeadline now fd dir deadline sel = (0, sel) := by
  by_cases hset : deadline = 0
  · subst hset
    exact if_pos rfl
  · have hover := h hset
    have hpending : ¬now ≤ deadline := by
      rw [UInt32.le_iff_toNat_le]
      omega
    have hgrace : ¬deadline + 1 = now := by
      intro heq
      have hsum := congrArg UInt32.toNat heq
      rw [UInt32.toNat_add, UInt32.toNat_one] at hsum
      have := now.toNat_lt
      omega
    simp only [scanDeadline, if_neg hset, if_neg hpending, if_neg hgrace]

end Deadline

/-! ## The loop -/

section Loop

variable (sd : WifiSocketId → Int) (now : UInt32)

/-- The part of a round that looks at one of the two deadlines. -/
def scanSlot (dir : Dir) (id : WifiSocketId) (sel : Selection) (s : State ι) :
    Selection × State ι :=
  if 0 < sd id then
    let slot := scanDeadline now (sd id) dir (s.deadline dir id) sel
    (slot.2, s.setDeadline dir id slot.1)
  else (sel, s)

/-- A round is its read part and its write part. -/
theorem scanContext_eq_slots (id : WifiSocketId) (sel : Selection) (s : State ι) :
    scanContext sd now id sel s =
      scanSlot sd now .tx id (scanSlot sd now .rx id sel s).1 (scanSlot sd now .rx id sel s).2 := by
  by_cases hsd : 0 < sd id
  · have hother : ¬(Dir.tx = Dir.rx ∧ id = id) := by simp
    simp only [scanContext, scanSlot, if_pos hsd, State.setDeadline_other _ _ hother]
  · simp only [scanContext, scanSlot, if_neg hsd]

variable {sd now} {deadline : Deadlines} {done : Set (Dir × WifiSocketId)} {sel : Selection}
variable {s : State ι} {dir : Dir} {id : WifiSocketId}

/-- Nothing is collected before the first round. -/
theorem collects_empty : Collects sd now deadline ∅ .empty where
  set := fun _ _ => iff_of_false (by simp [Selection.empty, fdIsSet]) (by simp)
  ptr := fun _ => iff_of_false (by simp [Selection.empty]) (by simp)
  timeoutMin := by
    have hnone : timeouts sd now deadline ∅ = {monitorMaxResponseS.toNat} := by
      ext t
      simp [timeouts]
    rw [hnone]
    exact isLeast_singleton

theorem clears_empty : Clears sd now deadline ∅ deadline :=
  ⟨fun _ _ h => absurd h (Set.notMem_empty _), fun _ _ _ => rfl⟩

/-- What is found among the scanned deadlines of one direction, after one more. -/
theorem exists_mem_insert {P : WifiSocketId → Prop} (dir' : Dir) :
    (∃ id', (dir', id') ∈ insert (dir, id) done ∧ P id') ↔
      (dir' = dir ∧ P id) ∨ ∃ id', (dir', id') ∈ done ∧ P id' := by
  constructor
  · rintro ⟨id', heq | hin, hP⟩
    · obtain ⟨rfl, rfl⟩ := Prod.mk.inj heq
      exact .inl ⟨rfl, hP⟩
    · exact .inr ⟨id', hin, hP⟩
  · rintro (⟨rfl, hP⟩ | ⟨id', hin, hP⟩)
    · exact ⟨id, .inl rfl, hP⟩
    · exact ⟨id', .inr hin, hP⟩

theorem mem_timeouts_insert (t : Nat) :
    t ∈ timeouts sd now deadline (insert (dir, id) done) ↔
      (Watched sd now deadline dir id ∧ t = secondsLeft now deadline dir id) ∨
        t ∈ timeouts sd now deadline done := by
  constructor
  · rintro (rfl | ⟨dir', id', heq | hin, hwatched, rfl⟩)
    · exact .inr (.inl rfl)
    · obtain ⟨rfl, rfl⟩ := Prod.mk.inj heq
      exact .inl ⟨hwatched, rfl⟩
    · exact .inr (.inr ⟨dir', id', hin, hwatched, rfl⟩)
  · rintro (⟨hwatched, rfl⟩ | rfl | ⟨dir', id', hin, hwatched, rfl⟩)
    · exact .inr ⟨dir, id, .inl rfl, hwatched, rfl⟩
    · exact .inl rfl
    · exact .inr ⟨dir', id', .inr hin, hwatched, rfl⟩

/-- A deadline that is not watched adds nothing. -/
theorem Collects.skip (h : Collects sd now deadline done sel)
    (hunwatched : ¬Watched sd now deadline dir id) :
    Collects sd now deadline (insert (dir, id) done) sel where
  set := by
    intro dir' fd
    rw [exists_mem_insert, or_iff_right]
    · exact h.set dir' fd
    · rintro ⟨rfl, hwatched, _⟩
      exact hunwatched hwatched
  ptr := by
    intro dir'
    rw [exists_mem_insert, or_iff_right]
    · exact h.ptr dir'
    · rintro ⟨rfl, hwatched⟩
      exact hunwatched hwatched
  timeoutMin := by
    have hsame : timeouts sd now deadline (insert (dir, id) done) =
        timeouts sd now deadline done := by
      ext t
      rw [mem_timeouts_insert, or_iff_right fun hnew => hunwatched hnew.1]
    exact hsame ▸ h.timeoutMin

/-- A watched deadline adds its socket and its time. -/
theorem Collects.add (h : Collects sd now deadline done sel) {t : UInt32}
    (hwatched : Watched sd now deadline dir id)
    (ht : t.toNat = min (secondsLeft now deadline dir id) sel.timeoutMin.toNat) :
    Collects sd now deadline (insert (dir, id) done)
      { sel.add dir (sd id) with timeoutMin := t } where
  set := by
    intro dir' fd
    rw [exists_mem_insert]
    by_cases hdir : dir' = dir
    · subst hdir
      simp only [Selection.add, Function.update_self, fdIsSet_or, fdIsSet_fdBit, h.set dir' fd,
        hwatched, true_and]
      exact or_comm
    · simp only [Selection.add, Function.update_of_ne hdir, h.set dir' fd, hdir, false_and,
        false_or]
  ptr := by
    intro dir'
    rw [exists_mem_insert]
    by_cases hdir : dir' = dir
    · subst hdir
      simp only [Selection.add, Function.update_self, hwatched, true_and, true_or]
    · simp only [Selection.add, Function.update_of_ne hdir, h.ptr dir', hdir, false_and, false_or]
  timeoutMin := by
    have hmore : timeouts sd now deadline (insert (dir, id) done) =
        insert (secondsLeft now deadline dir id) (timeouts sd now deadline done) := by
      ext u
      rw [mem_timeouts_insert, and_iff_right hwatched, Set.mem_insert_iff]
    rw [hmore, ht]
    exact h.timeoutMin.insert _

/-- The deadlines after one more is scanned. -/
theorem Clears.insert (h : Clears sd now deadline done s.deadline) {value : UInt32}
    (hvalue : value = if Expired sd now deadline dir id then 0 else deadline dir id) :
    Clears sd now deadline (insert (dir, id) done) (s.setDeadline dir id value).deadline where
  scanned := by
    intro dir' id' hin
    by_cases hsame : dir' = dir ∧ id' = id
    · obtain ⟨rfl, rfl⟩ := hsame
      rw [State.setDeadline_same, hvalue]
    · rw [State.setDeadline_other _ _ hsame]
      exact h.scanned dir' id' (hin.resolve_left fun heq => hsame (Prod.mk.inj heq))
  ahead := by
    intro dir' id' hout
    have hsame : ¬(dir' = dir ∧ id' = id) := by
      rintro ⟨rfl, rfl⟩
      exact hout (.inl rfl)
    rw [State.setDeadline_other _ _ hsame]
    exact h.ahead dir' id' fun hin => hout (.inr hin)

/-- Looking at one more deadline. -/
theorem Collects.slot (hsel : Collects sd now deadline done sel)
    (hclears : Clears sd now deadline done s.deadline) (hnew : (dir, id) ∉ done) :
    Collects sd now deadline (insert (dir, id) done) (scanSlot sd now dir id sel s).1 ∧
      Clears sd now deadline (insert (dir, id) done)
        (scanSlot sd now dir id sel s).2.deadline := by
  have hfound : s.deadline dir id = deadline dir id := hclears.ahead dir id hnew
  by_cases hsd : 0 < sd id
  · simp only [scanSlot, if_pos hsd, hfound]
    by_cases hwatched : Watched sd now deadline dir id
    · obtain ⟨t, ht, hscan⟩ :=
        scanDeadline_watched (sd id) dir sel hwatched.2.1 hwatched.2.2
      have hexpired : ¬Expired sd now deadline dir id := fun h =>
        absurd h.2 (Nat.not_lt.mpr hwatched.2.2)
      rw [hscan]
      exact ⟨hsel.add hwatched ht, hclears.insert (if_neg hexpired).symm⟩
    · have hover : deadline dir id ≠ 0 → (deadline dir id).toNat + 1 < now.toNat := fun hset =>
        Nat.lt_of_not_le fun hle => hwatched ⟨hsd, hset, hle⟩
      rw [scanDeadline_unwatched _ _ _ hover]
      refine ⟨hsel.skip hwatched, hclears.insert ?_⟩
      split
      · rfl
      · rename_i hexpired
        by_cases hset : deadline dir id = 0
        · exact hset.symm
        · exact absurd ⟨hsd, hover hset⟩ hexpired
  · have hexpired : ¬Expired sd now deadline dir id := fun h => hsd h.1
    have hsame : s.setDeadline dir id (deadline dir id) = s := by
      simp only [State.setDeadline, ← hfound, Function.update_eq_self]
    simp only [scanSlot, if_neg hsd]
    exact ⟨hsel.skip fun h => hsd h.1, hsame ▸ hclears.insert (if_neg hexpired).symm⟩

/-- The deadlines of the contexts the loop has passed. -/
def passed (rest : List WifiSocketId) : Set (Dir × WifiSocketId) := {slot | slot.2 ∉ rest}

theorem passed_cons {rest : List WifiSocketId} (hid : id ∉ rest) :
    passed rest = insert (.tx, id) (insert (.rx, id) (passed (id :: rest))) := by
  ext ⟨dir', id'⟩
  simp only [passed, Set.mem_insert_iff, Set.mem_ofPred_eq, Prod.mk.injEq, List.mem_cons]
  by_cases hsame : id' = id
  · subst hsame
    cases dir' <;> simp [hid]
  · simp [hsame]

/-- One round of the loop. -/
theorem Collects.context {rest : List WifiSocketId}
    (hsel : Collects sd now deadline (passed (id :: rest)) sel)
    (hclears : Clears sd now deadline (passed (id :: rest)) s.deadline) (hid : id ∉ rest) :
    Collects sd now deadline (passed rest) (scanContext sd now id sel s).1 ∧
      Clears sd now deadline (passed rest) (scanContext sd now id sel s).2.deadline := by
  have hrx : (Dir.rx, id) ∉ passed (id :: rest) := by simp [passed]
  have htx : (Dir.tx, id) ∉ insert (Dir.rx, id) (passed (id :: rest)) := by simp [passed]
  obtain ⟨hsel', hclears'⟩ := hsel.slot hclears hrx
  rw [scanContext_eq_slots, passed_cons hid]
  exact hsel'.slot hclears' htx

end Loop

/-! ## The loop as steps of the task -/

section Steps

variable {sd : WifiSocketId → Int} {now : UInt32} {deadline : Deadlines} {s s' : State ι}

/-- The loop has `n` steps left before the mutex is given back. -/
def StepsLeft (sd : WifiSocketId → Int) (now : UInt32) (deadline : Deadlines) (s : State ι) :
    Nat → Prop
  | 0 => ∃ sel, s.task = .unlock sel ∧ Collects sd now deadline Set.univ sel ∧
      Clears sd now deadline Set.univ s.deadline
  | n + 1 => ∃ rest sel, s.task = .scan now rest sel ∧ rest.length = n ∧ rest.Nodup ∧
      Collects sd now deadline (passed rest) sel ∧ Clears sd now deadline (passed rest) s.deadline

/-- All steps are left when the mutex has just been taken. -/
theorem stepsLeft_start (htask : s.task = .scan now WifiSocketId.all .empty) :
    StepsLeft sd now s.deadline s (WifiSocketId.all.length + 1) := by
  have hnone : passed WifiSocketId.all = ∅ := by
    ext slot
    simp [passed, WifiSocketId.mem_all]
  refine ⟨WifiSocketId.all, .empty, htask, rfl, by decide, ?_⟩
  rw [hnone]
  exact ⟨collects_empty, clears_empty⟩

theorem StepsLeft.inSection {n : Nat} (h : StepsLeft sd now deadline s n) :
    s.task.inSection = true := by
  cases n with
  | zero =>
      obtain ⟨sel, htask, -⟩ := h
      rw [htask]
      rfl
  | succ n =>
      obtain ⟨rest, sel, htask, -⟩ := h
      rw [htask]
      rfl

theorem StepsLeft.congr {n : Nat} (h : StepsLeft sd now deadline s n)
    (hdeadline : s'.deadline = s.deadline) (htask : s'.task = s.task) :
    StepsLeft sd now deadline s' n := by
  cases n <;> simpa only [StepsLeft, hdeadline, htask] using h

/-- A step of the task inside the loop. -/
theorem StepsLeft.of_taskStep {n : Nat} {env : Env} (h : StepsLeft sd now deadline s (n + 1))
    (hstep : taskStep sd env s = some s') : StepsLeft sd now deadline s' n := by
  obtain ⟨rest, sel, htask, hlength, hnodup, hsel, hclears⟩ := h
  cases rest with
  | nil =>
      obtain rfl : n = 0 := hlength.symm
      simp only [taskStep, htask, Option.some.injEq] at hstep
      subst hstep
      have hall : passed [] = Set.univ := by
        ext slot
        simp [passed]
      rw [hall] at hsel hclears
      exact ⟨sel, rfl, hsel, hclears⟩
  | cons id rest =>
      obtain ⟨m, rfl⟩ : ∃ m, n = m + 1 := ⟨rest.length, hlength.symm⟩
      simp only [taskStep, htask, Option.some.injEq] at hstep
      subst hstep
      obtain ⟨hid, hrest⟩ := List.nodup_cons.mp hnodup
      obtain ⟨hsel', hclears'⟩ := hsel.context hclears hid
      exact ⟨rest, _, rfl, Nat.succ.inj hlength, hrest, hsel', hclears'⟩

end Steps

/-! ## The loop among the steps of the clients -/

section Interleaved

variable [DecidableEq ι] {sd : WifiSocketId → Int} {now : UInt32} {deadline : Deadlines}
variable {s s' : State ι} {a : Action ι}

/-- Whether a step is one of `select_task`. -/
def Action.isTask : Action ι → Bool
  | .task _ => true
  | _ => false

omit [DecidableEq ι] in
theorem Action.eq_task (h : a.isTask = true) : ∃ env, a = .task env := by
  cases a with
  | task env => exact ⟨env, rfl⟩
  | _ => cases h

/-- While the task is inside one of its sections, the steps of the others leave the
deadlines and the task alone. -/
theorem deadline_of_others (h : HolderInSection s) (hin : s.task.inSection = true)
    (hstep : Monitor.step sd s a = some s') (hother : a.isTask = false) :
    s'.deadline = s.deadline ∧ s'.task = s.task := by
  cases (step_move hstep).2 with
  | call c q hmove =>
      obtain ⟨_, rfl⟩ := callStep_eq hmove
      exact ⟨rfl, rfl⟩
  | client c time hmove =>
      cases clientStep_move hmove with
      | store hpc =>
          have hclient : s.inSection (.client c) = true := by
            rw [State.inSection, hpc]
            rfl
          have htask : s.inSection .task = true := hin
          cases h.unique htask hclient
      | _ => exact ⟨rfl, rfl⟩
  | timeout c hmove =>
      obtain ⟨q, _, _, rfl⟩ := timeoutStep_eq hmove
      exact ⟨rfl, rfl⟩
  | task env hmove => cases hother
  | resume hmove =>
      rw [inSection_of_resumeStep hmove] at hin
      cases hin

/-- The steps of the task in a run. -/
def taskSteps (as : List (Action ι)) : Nat := as.countP Action.isTask

/-- When the task has taken the steps that were left, the loop is over. -/
theorem StepsLeft.run {as : List (Action ι)} {s t : State ι} (hheld : HolderInSection s)
    (h : StepsLeft sd now deadline s (taskSteps as))
    (hrun : (machine sd).run s as = some t) : StepsLeft sd now deadline t 0 := by
  induction as generalizing s with
  | nil =>
      obtain rfl : s = t := by simpa using hrun
      exact h
  | cons a as ih =>
      obtain ⟨s', hstep, hrest⟩ := Machine.run_uncons hrun
      have hheld' : HolderInSection s' := hheld.step hstep
      cases htask : a.isTask with
      | false =>
          have hcount : taskSteps (a :: as) = taskSteps as :=
            List.countP_cons_of_neg (by simp [htask])
          obtain ⟨hdeadline, hpc⟩ := deadline_of_others hheld h.inSection hstep htask
          rw [hcount] at h
          exact ih hheld' (h.congr hdeadline hpc) hrest
      | true =>
          have hcount : taskSteps (a :: as) = taskSteps as + 1 := List.countP_cons_of_pos htask
          obtain ⟨env, rfl⟩ := Action.eq_task htask
          rw [hcount] at h
          exact ih hheld' (h.of_taskStep (taskStep_of_step hstep)) hrest

/-- Nothing holds the task up inside the loop. -/
theorem scan_runs (env : Env) (rest : List WifiSocketId) {s : State ι} {sel : Selection}
    (hrunning : s.halted = false) (htask : s.task = .scan now rest sel) :
    ∃ t, (machine sd).run s (List.replicate (rest.length + 1) (.task env)) = some t := by
  induction rest generalizing s sel with
  | nil =>
      have hstep : (machine sd).step s (.task env) = some { s with task := .unlock sel } := by
        simp [machine, Monitor.step, hrunning, taskStep, htask]
      exact ⟨{ s with task := .unlock sel }, by simp [Machine.run, hstep]⟩
  | cons id rest ih =>
      obtain ⟨after, hframe⟩ := scanContext_frame sd now id sel s
      have hstep : (machine sd).step s (.task env) =
          some { s with
            deadline := after, task := .scan now rest (scanContext sd now id sel s).1 } := by
        simp [machine, Monitor.step, hrunning, taskStep, htask, hframe]
      obtain ⟨t, ht⟩ := ih (s := { s with
        deadline := after, task := .scan now rest (scanContext sd now id sel s).1 }) hrunning rfl
      refine ⟨t, ?_⟩
      rw [List.length_cons, List.replicate_succ, Machine.run, hstep]
      exact ht

end Interleaved

/-! ## Every scan -/

/-- The scan has found the deadlines `deadline` at time `now` and left `sel`, and the
mutex is about to be given back in `t`. -/
structure ScanResult (sd : WifiSocketId → Int) (now : UInt32) (deadline : Deadlines)
    (sel : Selection) (t : State ι) : Prop where
  set : ∀ dir fd, fdIsSet fd (sel.set dir) = true ↔
    ∃ id, Watched sd now deadline dir id ∧ (sd id).toNat % 16 = fd.toNat % 16
  /-- where the sockets differ in their numbers, the sets tell the contexts apart -/
  contexts : (∀ id id', 0 < sd id → 0 < sd id' →
      (sd id).toNat % 16 = (sd id').toNat % 16 → id = id') →
    ∀ dir id, 0 < sd id →
      (fdIsSet (sd id) (sel.set dir) = true ↔ Watched sd now deadline dir id)
  timeoutMin : IsLeast
    (insert monitorMaxResponseS.toNat
      {t | ∃ dir id, Watched sd now deadline dir id ∧ t = secondsLeft now deadline dir id})
    sel.timeoutMin.toNat
  /-- `sl_Select` does not sleep past a watched deadline -/
  wakes : ∀ dir id, Watched sd now deadline dir id →
    now.toNat + sel.timeoutMin.toNat ≤ max (deadline dir id).toNat now.toNat
  cleared : ∀ dir id,
    t.deadline dir id = if Expired sd now deadline dir id then 0 else deadline dir id
  /-- `sl_Select` is called exactly when one of the sets holds a socket -/
  selects : ∀ env, ∃ t', taskStep sd env t = some t' ∧
    ((∃ dir fd, fdIsSet fd (sel.set dir) = true) → t'.task = .select sel) ∧
    ((¬∃ dir fd, fdIsSet fd (sel.set dir) = true) → t'.task = .waiting)

theorem scanResult_of_collects {sd : WifiSocketId → Int} {now : UInt32} {deadline : Deadlines}
    {sel : Selection} {t : State ι} (htask : t.task = .unlock sel)
    (hsel : Collects sd now deadline Set.univ sel)
    (hclears : Clears sd now deadline Set.univ t.deadline) :
    ScanResult sd now deadline sel t := by
  have hset := hsel.set
  have hptr := hsel.ptr
  have hleast := hsel.timeoutMin
  simp only [timeouts, Set.mem_univ, true_and] at hset hptr hleast
  refine ⟨hset, ?_, hleast, ?_, fun dir id => hclears.scanned dir id trivial, ?_⟩
  · intro hdistinct dir id hopen
    rw [hset]
    constructor
    · rintro ⟨id', hwatched, heq⟩
      exact hdistinct id' id hwatched.1 hopen heq ▸ hwatched
    · intro hwatched
      exact ⟨id, hwatched, rfl⟩
  · intro dir id hwatched
    have hle : sel.timeoutMin.toNat ≤ secondsLeft now deadline dir id :=
      hleast.2 (.inr ⟨dir, id, hwatched, rfl⟩)
    unfold secondsLeft at hle
    omega
  · intro env
    have hsome : (∃ dir fd, fdIsSet fd (sel.set dir) = true) ↔
        (sel.ptr .rx || sel.ptr .tx) = true := by
      rw [Bool.or_eq_true, hptr, hptr]
      constructor
      · rintro ⟨dir, fd, hfd⟩
        obtain ⟨id, hwatched, -⟩ := (hset dir fd).mp hfd
        cases dir with
        | rx => exact .inl ⟨id, hwatched⟩
        | tx => exact .inr ⟨id, hwatched⟩
      · rintro (⟨id, hwatched⟩ | ⟨id, hwatched⟩)
        · exact ⟨.rx, sd id, (hset _ _).mpr ⟨id, hwatched, rfl⟩⟩
        · exact ⟨.tx, sd id, (hset _ _).mpr ⟨id, hwatched, rfl⟩⟩
    have hstep : taskStep sd env t =
        some { t with
          mutex := none
          task := if sel.ptr .rx || sel.ptr .tx then .select sel else .waiting } := by
      simp only [taskStep, htask]
    refine ⟨_, hstep, ?_, ?_⟩
    · intro hnonempty
      exact if_pos (hsome.mp hnonempty)
    · intro hempty
      exact if_neg fun h => hempty (hsome.mpr h)

/-- Whatever the clients do during the scan, it watches the deadlines it started with:
those set and over by at most a second.  It is never held up. -/
theorem scan_collects_watched [DecidableEq ι] (sd : WifiSocketId → Int) (now : UInt32)
    (s : State ι) (hheld : HolderInSection s)
    (htask : s.task = .scan now WifiSocketId.all .empty) :
    (∀ as t, (machine sd).run s as = some t → taskSteps as = WifiSocketId.all.length + 1 →
        ∃ sel, t.task = .unlock sel ∧ ScanResult sd now s.deadline sel t) ∧
      (s.halted = false → ∀ env, ∃ t, (machine sd).run s
        (List.replicate (WifiSocketId.all.length + 1) (.task env)) = some t) := by
  refine ⟨?_, fun hrunning env => scan_runs env WifiSocketId.all hrunning htask⟩
  intro as t hrun hcount
  have hstart : StepsLeft sd now s.deadline s (WifiSocketId.all.length + 1) :=
    stepsLeft_start htask
  rw [← hcount] at hstart
  obtain ⟨sel, hunlock, hsel, hclears⟩ := hstart.run hheld hrun
  exact ⟨sel, hunlock, scanResult_of_collects hunlock hsel hclears⟩

/-- The task scans at time 100, with one deadline in its second of grace. -/
def scanStart : State Unit :=
  { State.init with
    deadline := fun dir id => if dir = .rx ∧ id = .lwm2m then 99 else 0
    mutex := some .task
    task := .scan 100 WifiSocketId.all .empty }

theorem scan_collects_watched_scanStart :
    ∃ (t : State Unit) (sel : Selection), t.task = .unlock sel ∧
      ScanResult (fun id => if id = .lwm2m then 1 else -1) 100 scanStart.deadline sel t := by
  have hheld : HolderInSection scanStart := by
    intro holder
    cases holder with
    | task => exact iff_of_true rfl rfl
    | client c => exact iff_of_false nofun nofun
  obtain ⟨hresult, hruns⟩ := scan_collects_watched
    (fun id => if id = .lwm2m then 1 else -1) 100 scanStart hheld rfl
  obtain ⟨t, hrun⟩ := hruns rfl ⟨100, 0, fun _ => 0#32⟩
  obtain ⟨sel, hsel⟩ := hresult _ t hrun rfl
  exact ⟨t, sel, hsel⟩

end Uiso.Monitor
