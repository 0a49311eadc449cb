/-
  Sd/Log.lean --- the commands and answers that go over the bus.

  A record follows the bus byte by byte and knows nothing of the driver.  While the device is
  selected, a byte that begins with the bits 01 starts a command packet of six bytes, and the
  tokens 0xFE and 0xFC a block of 512 bytes with its checksum.  What is received behind a
  packet, until the next one or until the device is deselected, is its answer.

      Exchange : a command with the bytes received behind it
      Record   : the exchanges so far, and where in a packet or a block the bus is
      Recorder : a device on the bus whose record is kept

  The functions of the driver are then described by what they add to the record.
-/
import Uiso.Sd.Driver

set_option autoImplicit false

namespace Uiso.Sd

open Uiso.Foundation.Spi

/-! ## The record -/

/-- A command packet and what was received behind it. -/
structure Exchange where
  cmd : UInt8
  arg : Nat
  received : List UInt8
  deriving DecidableEq, Repr

/-- A byte can be a response: its highest bit is clear. -/
def isResponse (b : UInt8) : Bool := b &&& 0x80 = 0

/-- The response to a command; 0xFF if there was none. -/
def Exchange.response (e : Exchange) : UInt8 := (e.received.find? isResponse).getD 0xFF

/-- The bytes that follow the response. -/
def Exchange.trailing (e : Exchange) : List UInt8 :=
  (e.received.dropWhile (fun b => !isResponse b)).tail

/-- What was received when the wait for a response has ended with `n`. -/
def Answers (received : List UInt8) (n : UInt8) : Prop :=
  ∃ pre, received = pre ++ [n] ∧ ∀ b ∈ pre, isResponse b = false

/-- The response is the byte that has ended the wait, and what is received then follows it. -/
theorem Answers.response_eq {received : List UInt8} {n : UInt8} (h : Answers received n)
    (hn : isResponse n = true) (cmd : UInt8) (arg : Nat) (more : List UInt8) :
    Exchange.response ⟨cmd, arg, received ++ more⟩ = n ∧
      Exchange.trailing ⟨cmd, arg, received ++ more⟩ = more := by
  obtain ⟨pre, rfl, hpre⟩ := h
  have hfind : pre.find? isResponse = none := List.find?_eq_none.mpr fun b hb => by simp [hpre b hb]
  have hdrop : (pre ++ [n] ++ more).dropWhile (fun b => !isResponse b) = n :: more := by
    rw [List.append_assoc, List.dropWhile_append_of_pos (fun b hb => by simp [hpre b hb])]
    simp [hn]
  refine ⟨?_, ?_⟩
  · simp [Exchange.response, List.find?_append, hfind, hn]
  · rw [Exchange.trailing, hdrop, List.tail_cons]

/-- A wait that has ended with another byte than `m` is not the response `m`. -/
theorem Answers.response_ne {received : List UInt8} {n m : UInt8} (h : Answers received n)
    (hn : n ≠ m) (hm : isResponse m = true) (cmd : UInt8) (arg : Nat) :
    Exchange.response ⟨cmd, arg, received⟩ ≠ m := by
  cases hresponse : isResponse n with
  | true =>
      have hsame := (h.response_eq hresponse cmd arg []).1
      rw [List.append_nil] at hsame
      rw [hsame]
      exact hn
  | false =>
      obtain ⟨pre, rfl, hpre⟩ := h
      have hfind : (pre ++ [n]).find? isResponse = none := by
        refine List.find?_eq_none.mpr fun b hb => ?_
        rcases List.mem_append.mp hb with hb | hb
        · simp [hpre b hb]
        · simp [List.mem_singleton.mp hb, hresponse]
      rw [Exchange.response, hfind]
      rintro rfl
      exact absurd hm (by decide)

/-- What the bytes that are sent are part of. -/
inductive Framing where
  | none
  | packet (sent : List UInt8)
  | block (left : Nat)
  deriving DecidableEq, Repr

/-- The record of a bus.  `current` is the exchange whose answer is being received. -/
structure Record where
  selected : Bool
  framing : Framing
  closed : List Exchange
  current : Option Exchange
  deriving DecidableEq, Repr

namespace Record

/-- The record of a bus nothing has gone over. -/
def fresh : Record := ⟨false, .none, [], none⟩

/-- The exchanges so far. -/
def log (r : Record) : List Exchange := r.closed ++ r.current.toList

/-- The answer of the last command ends. -/
def close (r : Record) : Record := { r with closed := r.log, current := none }

/-- The line that selects the device. -/
def select (on : Bool) (r : Record) : Record :=
  if on then { r with selected := true } else { r.close with selected := false, framing := .none }

/-- The bytes of a packet so far. -/
def gather (r : Record) : List UInt8 → Record
  | [first, a3, a2, a1, a0, _] =>
      { r with
        framing := .none
        current := some ⟨first &&& 0x3F,
          ((a3.toNat * 256 + a2.toNat) * 256 + a1.toNat) * 256 + a0.toNat, []⟩ }
  | sent => { r with framing := .packet sent }

/-- A byte is received. -/
def hear (b : UInt8) (r : Record) : Record :=
  { r with current := r.current.map fun e => { e with received := e.received ++ [b] } }

/-- One byte each way with a device that is selected. -/
def byte (sent received : UInt8) (r : Record) : Record :=
  match r.framing with
  | .packet bytes => r.gather (bytes ++ [sent])
  | .block left => { r with framing := if left ≤ 1 then .none else .block (left - 1) }
  | .none =>
      if sent &&& 0xC0 = 0x40 then r.close.gather [sent]
      else if sent = 0xFE ∨ sent = 0xFC then { r.close with framing := .block 514 }
      else r.hear received

/-- One byte each way. -/
def exchange (sent received : UInt8) (r : Record) : Record :=
  if r.selected then r.byte sent received else r

/-- Nothing is being answered. -/
def idle (on : Bool) (log : List Exchange) : Record := ⟨on, .none, log, none⟩

/-- A command is being answered. -/
def answering (log : List Exchange) (e : Exchange) : Record := ⟨true, .none, log, some e⟩

/-- Bytes are received behind a packet. -/
def hearAll (bytes : List UInt8) (r : Record) : Record :=
  { r with current := r.current.map fun e => { e with received := e.received ++ bytes } }

@[simp] theorem log_idle (on : Bool) (log : List Exchange) : (idle on log).log = log :=
  List.append_nil log

@[simp] theorem log_answering (log : List Exchange) (e : Exchange) :
    (answering log e).log = log ++ [e] := rfl

theorem hearAll_idle (on : Bool) (log : List Exchange) (bytes : List UInt8) :
    (idle on log).hearAll bytes = idle on log := rfl

theorem hearAll_nil (r : Record) : r.hearAll [] = r := by
  cases r with
  | mk selected framing closed current => cases current <;> simp [hearAll]

theorem hear_hearAll (b : UInt8) (bytes : List UInt8) (r : Record) :
    (r.hear b).hearAll bytes = r.hearAll (b :: bytes) := by
  cases r with
  | mk selected framing closed current => cases current <;> simp [hear, hearAll]

/-- A high line starts nothing. -/
theorem exchange_high {r : Record} (hselected : r.selected = true) (hframing : r.framing = .none)
    (b : UInt8) : r.exchange 0xFF b = r.hear b := by
  have hpacket : ¬(0xFF : UInt8) &&& 0xC0 = 0x40 := by decide
  have htoken : ¬((0xFF : UInt8) = 0xFE ∨ (0xFF : UInt8) = 0xFC) := by decide
  simp only [exchange, hselected, if_true, byte, hframing, hpacket, htoken, if_false]

end Record

/-! ## Devices whose record is kept -/

variable {σ : Type} {dev : Device σ}

/-- The record of what goes over the bus of a device. -/
structure Recorder (dev : Device σ) where
  record : σ → Record
  select : ∀ on s, record (dev.select on s) = (record s).select on
  exchange : ∀ b s, record (dev.exchange b s).2 = (record s).exchange b (dev.exchange b s).1

namespace Recorder

variable (k : Recorder dev)

/-- A device that is not selected is not heard. -/
theorem exchange_deselected (b : UInt8) {s : σ} (h : (k.record s).selected = false) :
    k.record (dev.exchange b s).2 = k.record s := by
  rw [k.exchange, Record.exchange, h]
  rfl

theorem receive_deselected (n : Nat) {s : σ} (h : (k.record s).selected = false) :
    k.record (dev.receive n s).2 = k.record s := by
  induction n generalizing s with
  | zero => rfl
  | succ n ih =>
      have hfirst := k.exchange_deselected 0xFF h
      exact (ih (hfirst ▸ h)).trans hfirst

theorem transmit_deselected (bytes : List UInt8) {s : σ} (h : (k.record s).selected = false) :
    k.record (dev.transmit bytes s) = k.record s := by
  induction bytes generalizing s with
  | nil => rfl
  | cons b bytes ih =>
      have hfirst := k.exchange_deselected b h
      exact (ih (hfirst ▸ h)).trans hfirst

/-- What is read from a device that is selected is heard. -/
theorem receive (n : Nat) {s : σ} (hselected : (k.record s).selected = true)
    (hframing : (k.record s).framing = .none) :
    k.record (dev.receive n s).2 = (k.record s).hearAll (dev.receive n s).1 := by
  induction n generalizing s with
  | zero => exact ((k.record s).hearAll_nil).symm
  | succ n ih =>
      have hfirst : k.record (dev.exchange 0xFF s).2 =
          (k.record s).hear (dev.exchange 0xFF s).1 := by
        rw [k.exchange, Record.exchange_high hselected hframing]
      show k.record (dev.receive n (dev.exchange 0xFF s).2).2 =
        (k.record s).hearAll ((dev.exchange 0xFF s).1 :: (dev.receive n _).1)
      rw [ih (by rw [hfirst]; exact hselected) (by rw [hfirst]; exact hframing), hfirst,
        Record.hear_hearAll]

/-- What is polled is heard: bytes that do not end the wait, and the last one. -/
theorem poll (stop : UInt8 → Bool) {n : Nat} (hn : n ≠ 0) (last : UInt8) {s : σ}
    (hselected : (k.record s).selected = true) (hframing : (k.record s).framing = .none) :
    ∃ pre, (∀ b ∈ pre, stop b = false) ∧
      k.record (dev.poll stop n last s).2 =
        (k.record s).hearAll (pre ++ [(dev.poll stop n last s).1.2]) := by
  induction n generalizing s last with
  | zero => exact absurd rfl hn
  | succ n ih =>
      have hfirst : k.record (dev.exchange 0xFF s).2 =
          (k.record s).hearAll [(dev.exchange 0xFF s).1] := by
        rw [k.exchange, Record.exchange_high hselected hframing, ← Record.hear_hearAll,
          Record.hearAll_nil]
      by_cases hstop : stop (dev.exchange 0xFF s).1 = true
      · refine ⟨[], nofun, ?_⟩
        simp only [Device.poll, hstop, if_true, List.nil_append, hfirst]
      · by_cases hzero : n = 0
        · refine ⟨[], nofun, ?_⟩
          subst hzero
          simp only [Device.poll, hstop, Bool.false_eq_true, if_false, List.nil_append, hfirst]
        · have hnext : (k.record (dev.exchange 0xFF s).2).selected = true := by
            rw [hfirst]
            exact hselected
          have hnone : (k.record (dev.exchange 0xFF s).2).framing = .none := by
            rw [hfirst]
            exact hframing
          obtain ⟨pre, hpre, hrecord⟩ := ih hzero (dev.exchange 0xFF s).1 hnext hnone
          refine ⟨(dev.exchange 0xFF s).1 :: pre, ?_, ?_⟩
          · rw [List.forall_mem_cons]
            exact ⟨by simpa using hstop, hpre⟩
          · simp only [Device.poll, hstop, Bool.false_eq_true, if_false]
            rw [hrecord, hfirst, List.cons_append, ← Record.hear_hearAll, ← Record.hear_hearAll,
              Record.hearAll_nil]

/-! ## Commands -/

theorem deselect (s : σ) : k.record (Sd.deselect dev s) = Record.idle false (k.record s).log := by
  rw [Sd.deselect, k.exchange, k.select]
  rfl

/-- `select` adds nothing to the log. -/
theorem selects {s : σ} {log : List Exchange} (h : k.record s = Record.idle false log) :
    k.record (Sd.select dev s).2 = Record.idle (Sd.select dev s).1 log := by
  have hon : k.record (dev.exchange 0xFF (dev.select true s)).2 = Record.idle true log := by
    rw [k.exchange, k.select, h]
    rfl
  obtain ⟨pre, -, hwait⟩ := k.poll (fun d => d = 0xFF) (n := 5000) (by decide) 0
    (s := (dev.exchange 0xFF (dev.select true s)).2) (by rw [hon]; rfl) (by rw [hon]; rfl)
  rw [hon, Record.hearAll_idle] at hwait
  simp only [Sd.select]
  split
  · exact hwait
  · show k.record (Sd.deselect dev (waitReady dev _).2) = _
    rw [k.deselect]
    refine congrArg (Record.idle false) ?_
    rw [← Record.log_idle true log, ← hwait]
    rfl

/-- A command packet. -/
theorem packet {s : σ} (hselected : (k.record s).selected = true)
    (hframing : (k.record s).framing = .none) {cmd : UInt8} (hcmd : cmd < 64) (arg : UInt32) :
    k.record (dev.transmit (commandPacket cmd arg) s) =
      Record.answering (k.record s).log ⟨cmd, arg.toNat, []⟩ := by
  obtain ⟨hstart, hindex⟩ := start_bits hcmd
  simp only [commandPacket, Device.transmit, k.exchange, Record.exchange, Record.byte, hselected,
    hframing, if_true, hstart, Record.close, Record.gather, List.cons_append, List.nil_append,
    hindex, toNat_argument]
  rfl

/-- A command that is not an application command: the device does not get ready, or the
packet is sent and answered. -/
theorem sendPlain (cmd : UInt8) (hcmd : cmd < 64) (hstop : cmd ≠ cmd12) (arg : UInt32) (s : σ) :
    ((Sd.sendPlain dev cmd arg s).1 = 0xFF ∧
      k.record (Sd.sendPlain dev cmd arg s).2 = Record.idle false (k.record s).log) ∨
    ∃ received, Answers received (Sd.sendPlain dev cmd arg s).1 ∧
      k.record (Sd.sendPlain dev cmd arg s).2 =
        Record.answering (k.record s).log ⟨cmd, arg.toNat, received⟩ := by
  have hselect := k.selects (k.deselect s)
  simp only [Sd.sendPlain, hstop, ne_eq, not_false_iff, if_true]
  cases hready : (Sd.select dev (Sd.deselect dev s)).1 with
  | false =>
      rw [hready] at hselect
      exact .inl ⟨rfl, hselect⟩
  | true =>
      rw [hready] at hselect
      have hpacket := k.packet (by rw [hselect]; rfl) (by rw [hselect]; rfl) hcmd arg
      rw [hselect, Record.log_idle] at hpacket
      obtain ⟨pre, hpre, hpoll⟩ := k.poll (fun d => d &&& 0x80 = 0) (n := 10) (by decide) 0
        (s := dev.transmit (commandPacket cmd arg) (Sd.select dev (Sd.deselect dev s)).2)
        (by rw [hpacket]; rfl) (by rw [hpacket]; rfl)
      rw [hpacket] at hpoll
      refine .inr ⟨_, ⟨pre, rfl, hpre⟩, ?_⟩
      simp only [sendPacket, hstop, if_false, if_true]
      exact hpoll

/-- A command: its packet is not sent, or not answered well, with a result above 1; or it is
answered.  Before an application command there is CMD55. -/
theorem sendCmd (cmd : UInt8) (hcmd : cmd &&& 0x7F < 64) (hstop : cmd &&& 0x7F ≠ cmd12)
    (arg : UInt32) (s : σ) :
    ∃ before, (∀ e ∈ before, e.cmd = cmd55) ∧
      ((1 < (Sd.sendCmd dev cmd arg s).1 ∧
          (k.record (Sd.sendCmd dev cmd arg s).2).log = (k.record s).log ++ before) ∨
        ∃ received, Answers received (Sd.sendCmd dev cmd arg s).1 ∧
          k.record (Sd.sendCmd dev cmd arg s).2 =
            Record.answering ((k.record s).log ++ before) ⟨cmd &&& 0x7F, arg.toNat, received⟩) := by
  by_cases happ : cmd &&& 0x80 = 0
  · have hsame : Sd.sendCmd dev cmd arg s = Sd.sendPlain dev (cmd &&& 0x7F) arg s := by
      rw [Sd.sendCmd, if_neg (not_not_intro happ), index_of_plain happ]
    refine ⟨[], nofun, ?_⟩
    rw [hsame, List.append_nil]
    rcases k.sendPlain _ hcmd hstop arg s with ⟨hn, hrecord⟩ | hanswered
    · refine .inl ⟨by rw [hn]; decide, ?_⟩
      rw [hrecord, Record.log_idle]
    · exact .inr hanswered
  · have hfirst := k.sendPlain cmd55 (by decide) (by decide) 0 s
    by_cases hn : (Sd.sendPlain dev cmd55 0 s).1 > 1
    · have hsame : Sd.sendCmd dev cmd arg s = Sd.sendPlain dev cmd55 0 s := by
        simp only [Sd.sendCmd, happ, ne_eq, not_false_iff, if_true, if_pos hn]
      rw [hsame]
      rcases hfirst with ⟨-, hrecord⟩ | ⟨received, -, hrecord⟩
      · refine ⟨[], nofun, .inl ⟨hn, ?_⟩⟩
        rw [hrecord, Record.log_idle, List.append_nil]
      · refine ⟨[⟨cmd55, (0 : UInt32).toNat, received⟩], by simp, .inl ⟨hn, ?_⟩⟩
        rw [hrecord, Record.log_answering]
    · have hsame : Sd.sendCmd dev cmd arg s =
          Sd.sendPlain dev (cmd &&& 0x7F) arg (Sd.sendPlain dev cmd55 0 s).2 := by
        simp only [Sd.sendCmd, happ, ne_eq, not_false_iff, if_true, if_neg hn]
      rcases hfirst with ⟨hsilent, -⟩ | ⟨received, -, hrecord⟩
      · exact absurd (hsilent ▸ by decide) hn
      · refine ⟨[⟨cmd55, (0 : UInt32).toNat, received⟩], by simp, ?_⟩
        rw [hsame]
        rcases k.sendPlain _ hcmd hstop arg (Sd.sendPlain dev cmd55 0 s).2 with
          ⟨hn', hrecord'⟩ | ⟨received', hanswers, hrecord'⟩
        · refine .inl ⟨by rw [hn']; decide, ?_⟩
          rw [hrecord', Record.log_idle, hrecord, Record.log_answering]
        · refine .inr ⟨received', hanswers, ?_⟩
          rw [hrecord', hrecord, Record.log_answering]

end Recorder

end Uiso.Sd
