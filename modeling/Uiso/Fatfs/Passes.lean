/-
  Fatfs/Passes.lean --- the two users of the file system on the SD card:
  `uiso_load_config` (src/config.c) and the loop of `system_monitor`
  (src/monitor_service.c).

  Each pass mounts the volume, opens a file, works on it, closes it and unmounts the
  volume.  One variable `fRes` carries the result from call to call.  The model keeps the
  calls of a pass in their order, with their results, which are given.

  `uiso_load_config` runs in the start-up hook of the timer daemon, and the loop of
  `system_monitor` waits for a timer; so the passes follow one another.  Every pass has a
  `FIL` of its own.

      discipline      : which calls are allowed, and what is held after them
-/
import Uiso.Foundation.Machine

set_option autoImplicit false

namespace Uiso.Fatfs

open Uiso.Foundation

/-! ## Calls and results -/

/-- `FRESULT` -/
inductive FResult where
  | ok
  | diskErr
  | intErr
  | notReady
  | noFile
  | noPath
  | invalidName
  | denied
  | exist
  | invalidObject
  | writeProtected
  | invalidDrive
  | notEnabled
  | noFilesystem
  | mkfsAborted
  | timeout
  | locked
  | notEnoughCore
  | tooManyOpenFiles
  | invalidParameter
  deriving DecidableEq, Repr

/-- The buffers of `uiso_load_config`. -/
inductive Block where
  /-- `read_buffer` -/
  | readBuffer
  /-- `json_tokens` -/
  | jsonTokens
  deriving DecidableEq, Repr

/-- A call and its result.  `enter` is the start of a pass. -/
inductive Call where
  | enter
  | fMount (result : FResult)
  | fOpen (result : FResult)
  | fLseek (result : FResult)
  | fRead (result : FResult)
  | fWrite (result : FResult)
  | fClose (result : FResult)
  | fUnmount (result : FResult)
  /-- `found` is false for a null pointer -/
  | pvPortMalloc (block : Block) (found : Bool)
  | vPortFree (block : Block)
  deriving DecidableEq, Repr

/-- One truth value for each buffer. -/
structure Blocks where
  readBuffer : Bool
  jsonTokens : Bool
  deriving DecidableEq, Repr

namespace Blocks

/-- No buffer. -/
def none : Blocks := ⟨false, false⟩

/-- The value for a buffer. -/
def get (m : Blocks) : Block → Bool
  | .readBuffer => m.readBuffer
  | .jsonTokens => m.jsonTokens

/-- The value for a buffer replaced. -/
def set (m : Blocks) : Block → Bool → Blocks
  | .readBuffer, x => { m with readBuffer := x }
  | .jsonTokens, x => { m with jsonTokens := x }

theorem set_of_get {m : Blocks} {block : Block} {x : Bool} (h : m.get block = x) :
    m.set block x = m := by
  subst h
  cases block <;> rfl

end Blocks

/-! ## A pass -/

/-- A pass so far: `fRes`, the pointers that are not `NULL`, and the calls. -/
structure Pass where
  fRes : FResult
  blocks : Blocks
  calls : List Call
  deriving DecidableEq, Repr

namespace Pass

/-- `FRESULT fRes = FR_OK;`, and null pointers. -/
def start : Pass := ⟨.ok, .none, [.enter]⟩

/-- A call whose result is not kept. -/
def log (p : Pass) (call : Call) : Pass := { p with calls := p.calls ++ [call] }

/-- `fRes = call(..);` -/
def assign (p : Pass) (call : FResult → Call) (result : FResult) : Pass :=
  { p.log (call result) with fRes := result }

/-- `if (FR_OK == fRes) { .. }` -/
def ifOk (p : Pass) (body : Pass → Pass) : Pass := if p.fRes = .ok then body p else p

/-- `if (FR_OK == fRes) { fRes = call(..); } else { (void) call(..); }` -/
def cleanup (p : Pass) (call : FResult → Call) (result : FResult) : Pass :=
  if p.fRes = .ok then p.assign call result else p.log (call result)

/-- `block = pvPortMalloc(..);` -/
def malloc (p : Pass) (block : Block) (found : Bool) : Pass :=
  { p.log (.pvPortMalloc block found) with blocks := p.blocks.set block found }

/-- `if (NULL != block) { vPortFree(block); }` -/
def free (p : Pass) (block : Block) : Pass :=
  if p.blocks.get block then p.log (.vPortFree block) else p

/-- The first two calls of both passes: the volume is mounted, and if it is, a file is
opened. -/
def openFile (p : Pass) (mountResult openResult : FResult) : Pass :=
  (p.assign .fMount mountResult).ifOk fun p => p.assign .fOpen openResult

/-- The end of both passes: the file is closed, and the volume unmounted. -/
def closeFile (p : Pass) (closeResult unmountResult : FResult) : Pass :=
  (p.cleanup .fClose closeResult).cleanup .fUnmount unmountResult

/-- What holds before an `if (FR_OK == fRes)` and behind its body holds behind it. -/
theorem ifOk_of {Q : Pass → Prop} {p : Pass} {body : Pass → Pass} (h : Q p) (hbody : Q (body p)) :
    Q (p.ifOk body) := by
  rw [ifOk]
  split
  · exact hbody
  · exact h

end Pass

/-- What one `uiso_load_config` meets: the results of its calls, the size of the file, and
the number of tokens `jsmn_parse` counts. -/
structure LoadAnswers where
  mountResult : FResult
  openResult : FResult
  fSize : Nat
  readBufferFound : Bool
  readResult : FResult
  parseResult : Int
  jsonTokensFound : Bool
  closeResult : FResult
  unmountResult : FResult
  deriving DecidableEq, Repr

/-- `uiso_load_config`, up to the closing of the file. -/
def loadFile (a : LoadAnswers) : Pass :=
  let p := Pass.start.openFile a.mountResult a.openResult
  let p := p.ifOk fun p => if 0 < a.fSize then p.malloc .readBuffer a.readBufferFound else p
  let p := p.ifOk fun p => p.assign .fRead a.readResult
  p.ifOk fun p => if 0 < a.parseResult then p.malloc .jsonTokens a.jsonTokensFound else p

/-- `uiso_load_config` -/
def uisoLoadConfig (a : LoadAnswers) : Pass :=
  let p := (loadFile a).closeFile a.closeResult a.unmountResult
  let p := p.free .jsonTokens
  p.free .readBuffer

/-- What one round of `system_monitor` meets. -/
structure MonitorAnswers where
  mountResult : FResult
  openResult : FResult
  lseekResult : FResult
  writeResult : FResult
  closeResult : FResult
  unmountResult : FResult
  deriving DecidableEq, Repr

/-- One round of the loop of `system_monitor`, up to the closing of the file. -/
def logLine (a : MonitorAnswers) : Pass :=
  let p := Pass.start.openFile a.mountResult a.openResult
  let p := p.ifOk fun p => p.assign .fLseek a.lseekResult
  p.ifOk fun p => p.assign .fWrite a.writeResult

/-- One round of the loop of `system_monitor`. -/
def systemMonitor (a : MonitorAnswers) : Pass :=
  (logLine a).closeFile a.closeResult a.unmountResult

/-- The calls of one `uiso_load_config` and some rounds of `system_monitor`. -/
def allCalls (load : LoadAnswers) (monitors : List MonitorAnswers) : List Call :=
  (uisoLoadConfig load).calls ++ monitors.flatMap fun m => (systemMonitor m).calls

/-! ## The discipline -/

/-- What is held: whether the `FIL` of the pass is open, and the buffers. -/
structure Held where
  file : Bool
  blocks : Blocks
  deriving DecidableEq, Repr

/-- Nothing is held. -/
def Held.none : Held := ⟨false, .none⟩

/-- A pass starts with nothing held; `f_close` is called on an open file, `f_unmount` when
no file is open, and a buffer is freed when it is allocated.  With `tolerant`, an `f_close`
on a file that is not open passes too. -/
def discipline (tolerant : Bool) : Machine Held Call where
  step h
    | .enter => if h = Held.none then some h else none
    | .fOpen result =>
        if result = .ok then if h.file then none else some { h with file := true } else some h
    | .fClose _ => if h.file || tolerant then some { h with file := false } else none
    | .fUnmount _ => if h.file then none else some h
    | .pvPortMalloc block found =>
        if found then if h.blocks.get block then none
          else some { h with blocks := h.blocks.set block true }
        else some h
    | .vPortFree block =>
        if h.blocks.get block then some { h with blocks := h.blocks.set block false } else none
    | .fMount _ => some h
    | .fLseek _ => some h
    | .fRead _ => some h
    | .fWrite _ => some h

/-- The calls are allowed one after the other, and nothing is held at the end. -/
def Disciplined (calls : List Call) : Prop :=
  (discipline false).run Held.none calls = some Held.none

instance (calls : List Call) : Decidable (Disciplined calls) :=
  inferInstanceAs (Decidable (_ = _))

section Pass

variable {tolerant : Bool} {p : Pass} {file : Bool}

/-- A pass so far has kept the discipline: it holds the buffers its pointers point to, and
`file` says whether its file is open. -/
def Holds (tolerant : Bool) (p : Pass) (file : Bool) : Prop :=
  (discipline tolerant).run Held.none p.calls = some ⟨file, p.blocks⟩

theorem run_log (p : Pass) (call : Call) :
    (discipline tolerant).run Held.none (p.log call).calls =
      ((discipline tolerant).run Held.none p.calls).bind
        fun h => (discipline tolerant).step h call := by
  rw [Pass.log, Machine.run_append_bind]
  congr 1
  funext h
  simp only [Machine.run]
  cases (discipline tolerant).step h call <;> rfl

/-- One more call. -/
theorem Holds.log (h : Holds tolerant p file) {call : Call} {file' : Bool}
    (hstep : (discipline tolerant).step ⟨file, p.blocks⟩ call = some ⟨file', p.blocks⟩) :
    Holds tolerant (p.log call) file' := by
  rw [Holds, run_log, h]
  exact hstep

/-- A null pointer may be given a buffer. -/
theorem Holds.malloc (h : Holds tolerant p file) {block : Block}
    (hnull : p.blocks.get block = false) (found : Bool) :
    Holds tolerant (p.malloc block found) file := by
  have hcalls : (p.malloc block found).calls = (p.log (.pvPortMalloc block found)).calls := rfl
  rw [Holds, hcalls, run_log, h]
  cases found with
  | false =>
      rw [Pass.malloc, Blocks.set_of_get hnull]
      rfl
  | true => simp [discipline, hnull, Pass.malloc]

/-- The first two calls leave the file open if both succeed. -/
theorem holds_openFile (tolerant : Bool) (mountResult openResult : FResult) :
    Holds tolerant (Pass.start.openFile mountResult openResult)
      (decide (mountResult = .ok ∧ openResult = .ok)) := by
  have hmount : Holds tolerant (Pass.start.assign .fMount mountResult) false := rfl
  have hres : (Pass.start.assign .fMount mountResult).fRes = mountResult := rfl
  rw [Pass.openFile, Pass.ifOk, hres]
  by_cases hm : mountResult = .ok
  · rw [if_pos hm]
    by_cases ho : openResult = .ok
    · rw [decide_eq_true ⟨hm, ho⟩]
      exact hmount.log (if_pos ho)
    · rw [decide_eq_false fun h => ho h.2]
      exact hmount.log (if_neg ho)
  · rw [if_neg hm, decide_eq_false fun h => hm h.1]
    exact hmount

theorem blocks_openFile (mountResult openResult : FResult) :
    (Pass.start.openFile mountResult openResult).blocks = .none :=
  Pass.ifOk_of (Q := fun p => p.blocks = .none) rfl rfl

theorem calls_cleanup (p : Pass) (call : FResult → Call) (result : FResult) :
    (p.cleanup call result).calls = (p.log (call result)).calls := by
  rw [Pass.cleanup]
  split <;> rfl

theorem blocks_cleanup (p : Pass) (call : FResult → Call) (result : FResult) :
    (p.cleanup call result).blocks = p.blocks := by
  rw [Pass.cleanup]
  split <;> rfl

theorem blocks_closeFile (p : Pass) (closeResult unmountResult : FResult) :
    (p.closeFile closeResult unmountResult).blocks = p.blocks := by
  rw [Pass.closeFile, blocks_cleanup, blocks_cleanup]

/-- An open file is closed before the volume is unmounted.  A file that is not open is
closed all the same, which only a tolerant discipline allows. -/
theorem run_closeFile {opened : Prop} [Decidable opened] (h : Holds tolerant p (decide opened))
    (closeResult unmountResult : FResult) :
    (discipline tolerant).run Held.none (p.closeFile closeResult unmountResult).calls =
      if tolerant = true ∨ opened then some ⟨false, p.blocks⟩ else none := by
  rw [Pass.closeFile, calls_cleanup, run_log, calls_cleanup, run_log, h]
  by_cases hopened : opened
  · rw [if_pos (.inr hopened), decide_eq_true hopened]
    rfl
  · rw [decide_eq_false hopened]
    cases tolerant with
    | true => rw [if_pos (.inl rfl)]; rfl
    | false => rw [if_neg (by simp [hopened])]; rfl

/-- A buffer is freed if it was allocated. -/
theorem run_free {m : Blocks} {block : Block}
    (h : (discipline tolerant).run Held.none p.calls = some ⟨file, m⟩)
    (hm : m.get block = p.blocks.get block) :
    (discipline tolerant).run Held.none (p.free block).calls =
      some ⟨file, m.set block false⟩ := by
  rw [Pass.free]
  split
  · rename_i hheld
    rw [run_log, h]
    exact if_pos (hm.trans hheld)
  · rename_i hnull
    rw [h, Blocks.set_of_get (hm.trans (Bool.eq_false_iff.mpr hnull))]

theorem blocks_free (p : Pass) (block : Block) : (p.free block).blocks = p.blocks := by
  rw [Pass.free]
  split <;> rfl

/-- Behind the two frees nothing is held, if only the buffers were before. -/
theorem run_frees (h : Holds tolerant p false) :
    (discipline tolerant).run Held.none ((p.free .jsonTokens).free .readBuffer).calls =
      some Held.none := by
  have hjson : (discipline tolerant).run Held.none (p.free .jsonTokens).calls =
      some ⟨false, p.blocks.set .jsonTokens false⟩ := run_free h rfl
  exact run_free hjson (by rw [blocks_free]; rfl)

theorem run_free_of_none {block : Block}
    (h : (discipline tolerant).run Held.none p.calls = none) :
    (discipline tolerant).run Held.none (p.free block).calls = none := by
  rw [Pass.free]
  split
  · rw [run_log, h]
    rfl
  · exact h

/-! ## The two passes -/

/-- The reading of the file keeps the discipline, whatever its calls return. -/
theorem holds_loadFile (tolerant : Bool) (a : LoadAnswers) :
    Holds tolerant (loadFile a) (decide (a.mountResult = .ok ∧ a.openResult = .ok)) := by
  have hopen := holds_openFile tolerant a.mountResult a.openResult
  have hnone := blocks_openFile a.mountResult a.openResult
  unfold loadFile
  generalize Pass.start.openFile a.mountResult a.openResult = p at hopen hnone ⊢
  generalize decide (a.mountResult = .ok ∧ a.openResult = .ok) = file at hopen ⊢
  -- Until `json_tokens` is allocated, its pointer is null.
  let Q := fun p : Pass => Holds tolerant p file ∧ p.blocks.get .jsonTokens = false
  have hstart : Q p := ⟨hopen, by rw [hnone]; rfl⟩
  have hbuffer : Q (p.ifOk fun p =>
      if 0 < a.fSize then p.malloc .readBuffer a.readBufferFound else p) := by
    refine Pass.ifOk_of hstart ?_
    split
    · exact ⟨hopen.malloc (by rw [hnone]; rfl) a.readBufferFound, hstart.2⟩
    · exact hstart
  have hread : Q (Pass.ifOk _ fun p => p.assign .fRead a.readResult) :=
    Pass.ifOk_of hbuffer ⟨hbuffer.1.log rfl, hbuffer.2⟩
  refine Pass.ifOk_of (Q := fun p => Holds tolerant p file) hread.1 ?_
  split
  · exact hread.1.malloc hread.2 a.jsonTokensFound
  · exact hread.1

/-- So does the writing of the line. -/
theorem holds_logLine (tolerant : Bool) (a : MonitorAnswers) :
    Holds tolerant (logLine a) (decide (a.mountResult = .ok ∧ a.openResult = .ok)) := by
  have hopen := holds_openFile tolerant a.mountResult a.openResult
  let Q := fun p => Holds tolerant p (decide (a.mountResult = .ok ∧ a.openResult = .ok))
  have hlseek : Q ((Pass.start.openFile a.mountResult a.openResult).ifOk fun p =>
      p.assign .fLseek a.lseekResult) := Pass.ifOk_of hopen (hopen.log rfl)
  exact Pass.ifOk_of (Q := Q) hlseek (hlseek.log rfl)

theorem blocks_logLine (a : MonitorAnswers) : (logLine a).blocks = .none := by
  have hnone := blocks_openFile a.mountResult a.openResult
  let Q := fun p : Pass => p.blocks = .none
  have hlseek : Q ((Pass.start.openFile a.mountResult a.openResult).ifOk fun p =>
      p.assign .fLseek a.lseekResult) := Pass.ifOk_of hnone hnone
  exact Pass.ifOk_of (Q := Q) hlseek hlseek

/-- `uiso_load_config` keeps the discipline if the file was opened, and only then; the
tolerant one it always keeps. -/
theorem run_uisoLoadConfig (tolerant : Bool) (a : LoadAnswers) :
    (discipline tolerant).run Held.none (uisoLoadConfig a).calls =
      if tolerant = true ∨ a.mountResult = .ok ∧ a.openResult = .ok then some Held.none
      else none := by
  have hclose := run_closeFile (holds_loadFile tolerant a) a.closeResult a.unmountResult
  rw [uisoLoadConfig]
  split
  · rename_i hallowed
    rw [if_pos hallowed, ← blocks_closeFile _ a.closeResult a.unmountResult] at hclose
    exact run_frees hclose
  · rename_i hrefused
    rw [if_neg hrefused] at hclose
    exact run_free_of_none (run_free_of_none hclose)

/-- The same of a round of `system_monitor`. -/
theorem run_systemMonitor (tolerant : Bool) (a : MonitorAnswers) :
    (discipline tolerant).run Held.none (systemMonitor a).calls =
      if tolerant = true ∨ a.mountResult = .ok ∧ a.openResult = .ok then some Held.none
      else none := by
  have hclose := run_closeFile (holds_logLine tolerant a) a.closeResult a.unmountResult
  rw [blocks_logLine] at hclose
  exact hclose

end Pass

/-! ## All passes -/

/-- The rounds of `system_monitor`, one after the other. -/
theorem run_systemMonitors (tolerant : Bool) (monitors : List MonitorAnswers) :
    (discipline tolerant).run Held.none (monitors.flatMap fun m => (systemMonitor m).calls) =
      some Held.none ↔
    ∀ m ∈ monitors, tolerant = true ∨ m.mountResult = .ok ∧ m.openResult = .ok := by
  induction monitors with
  | nil => simp
  | cons m rest ih =>
      rw [List.flatMap_cons, Machine.run_append_bind, run_systemMonitor, List.forall_mem_cons]
      split
      · rename_i hallowed
        rw [Option.bind_some, ih]
        exact ⟨fun h => ⟨hallowed, h⟩, fun h => h.2⟩
      · rename_i hrefused
        rw [Option.bind_none]
        exact iff_of_false (by simp) fun h => hrefused h.1

theorem run_allCalls (tolerant : Bool) (load : LoadAnswers) (monitors : List MonitorAnswers) :
    (discipline tolerant).run Held.none (allCalls load monitors) = some Held.none ↔
      (tolerant = true ∨ load.mountResult = .ok ∧ load.openResult = .ok) ∧
        ∀ m ∈ monitors, tolerant = true ∨ m.mountResult = .ok ∧ m.openResult = .ok := by
  rw [allCalls, Machine.run_append_bind, run_uisoLoadConfig]
  split
  · rename_i hallowed
    rw [Option.bind_some, run_systemMonitors]
    exact ⟨fun h => ⟨hallowed, h⟩, fun h => h.2⟩
  · rename_i hrefused
    rw [Option.bind_none]
    exact iff_of_false (by simp) fun h => hrefused h.1

/-- Whatever the calls return: every file that was opened is closed before the volume is
unmounted, and every buffer is freed precisely once. -/
theorem run_allCalls_tolerant (load : LoadAnswers) (monitors : List MonitorAnswers) :
    (discipline true).run Held.none (allCalls load monitors) = some Held.none :=
  (run_allCalls true load monitors).mpr ⟨.inl rfl, fun _ _ => .inl rfl⟩

/-- The whole discipline is kept if and only if in every pass the volume was mounted and the
file opened. -/
theorem disciplined_allCalls_iff (load : LoadAnswers) (monitors : List MonitorAnswers) :
    Disciplined (allCalls load monitors) ↔
      (load.mountResult = .ok ∧ load.openResult = .ok) ∧
        ∀ m ∈ monitors, m.mountResult = .ok ∧ m.openResult = .ok := by
  rw [Disciplined, run_allCalls]
  simp only [Bool.false_eq_true, false_or]

/-- There is no card in the slot when the configuration is loaded. -/
def noCard : LoadAnswers where
  mountResult := .notReady
  openResult := .notReady
  fSize := 0
  readBufferFound := false
  readResult := .notReady
  parseResult := 0
  jsonTokensFound := false
  closeResult := .invalidObject
  unmountResult := .ok

/-- `f_close` is called on a `FIL` that was never opened. -/
theorem not_disciplined_noCard :
    (uisoLoadConfig noCard).calls =
        [.enter, .fMount .notReady, .fClose .invalidObject, .fUnmount .ok] ∧
      ¬∀ load monitors, Disciplined (allCalls load monitors) := by
  refine ⟨rfl, fun h => ?_⟩
  have := h noCard []
  revert this
  decide

end Uiso.Fatfs
