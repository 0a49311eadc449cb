/-
  Sd/Card.lean --- an SD card on the bus, in SPI mode.

  The card is the environment of the driver in Sd/Driver.lean.  It has the commands of the
  transfers (CMD9, CMD12, CMD17, CMD18, CMD24, CMD25, CMD55 and ACMD23) and is past its
  initialisation.  How long it takes for an answer, for the first byte of a data packet and
  for the programming of a block is free, within the limits the driver waits for.

      Medium : what the card stores
      Card   : the medium, and the state of the interface

  A byte that is sent to the card while it is busy is lost.  A card that reads multiple blocks
  sends one data packet after the other until it is stopped, and an error token in place of a
  block it does not have.
-/
import Uiso.Sd.Driver
import Mathlib.Logic.Function.Basic

set_option autoImplicit false

namespace Uiso.Sd

open Uiso.Foundation.Spi

/-! ## The medium -/

/-- What a card stores. -/
structure Medium where
  kind : CardKind
  csd : { data : List UInt8 // data.length = 16 }
  capacity : Nat
  sectors : Nat → Sector

/-- The sector the argument of a command stands for. -/
def Medium.sectorOf (m : Medium) (arg : Nat) : Nat :=
  if m.kind = .sdc2Block then arg else arg / 512

/-- The bytes of `n` sectors. -/
def Medium.bytes (m : Medium) (sector n : Nat) : List UInt8 :=
  (List.range' sector n).flatMap fun i => (m.sectors i).val

/-- How many of `n` sectors the card has. -/
def Medium.available (m : Medium) (sector n : Nat) : Nat := min n (m.capacity - sector)

/-- One sector is stored. -/
def Medium.store (m : Medium) (sector : Nat) (data : Sector) : Medium :=
  { m with sectors := Function.update m.sectors sector data }

/-! ## The interface -/

/-- The times and the free bytes of one answer of the card. -/
structure Timing where
  /-- the bytes before a response -/
  response : Fin 10
  /-- the bytes before a data token -/
  access : Fin 1000
  /-- the bytes during which the card is busy -/
  busy : List UInt8
  busy_low : ∀ b ∈ busy, b ≠ 0xFF
  busy_short : busy.length < 5000
  /-- the checksum of a data packet -/
  crc : { data : List UInt8 // data.length = 2 }
  /-- the byte that comes before the card reacts to the end of a transfer -/
  stuff : UInt8
  /-- the upper bits of a data response -/
  upper : UInt8

/-- A data packet. -/
def Timing.dataPacket (t : Timing) (data : List UInt8) : List UInt8 :=
  List.replicate t.access 0xFF ++ [0xFE] ++ data ++ t.crc.val

/-- A response, with what follows it. -/
def Timing.answer (t : Timing) (r : UInt8) (rest : List UInt8) : List UInt8 :=
  List.replicate t.response 0xFF ++ [r] ++ rest

/-- What the card is doing. -/
inductive Activity where
  | idle
  /-- it sends blocks until it is stopped -/
  | reading (next : Nat)
  /-- it waits for the token of a block that is to be written -/
  | awaiting (multiple : Bool) (target : Nat)
  /-- it receives a block and its checksum -/
  | receiving (multiple : Bool) (target : Nat) (got : List UInt8)

/-- The card.  `out` is what it sends next; when there is nothing, the line is high. -/
structure Card where
  medium : Medium
  timing : Nat → Timing
  events : Nat
  selected : Bool
  command : List UInt8
  activity : Activity
  out : List UInt8

namespace Card

/-- The times of the next answer. -/
def now (c : Card) : Timing := c.timing c.events

/-- The card has answered: what it does now, and what it sends. -/
def answer (c : Card) (activity : Activity) (out : List UInt8) : Card :=
  { c with events := c.events + 1, activity := activity, out := out }

/-- A command that names a sector: parameter error if the card does not have it. -/
def addressed (c : Card) (sector : Nat) (activity : Activity) (rest : List UInt8) : Card :=
  if sector < c.medium.capacity then c.answer activity (c.now.answer 0 rest)
  else c.answer .idle (c.now.answer 0x40 [])

/-- A command is executed; a card that sends blocks takes no other than the one that stops
it. -/
def execute (c : Card) (cmd : UInt8) (arg : Nat) : Card :=
  let sector := c.medium.sectorOf arg
  if cmd = cmd12 then c.answer .idle (c.now.stuff :: c.now.answer 0 c.now.busy)
  else
    match c.activity with
    | .idle =>
        if cmd = cmd9 then c.answer .idle (c.now.answer 0 (c.now.dataPacket c.medium.csd.val))
        else if cmd = cmd17 then
          c.addressed sector .idle (c.now.dataPacket (c.medium.sectors sector).val)
        else if cmd = cmd18 then c.addressed sector (.reading sector) []
        else if cmd = cmd24 then c.addressed sector (.awaiting false sector) []
        else if cmd = cmd25 then c.addressed sector (.awaiting true sector) []
        else if cmd = 23 ∨ cmd = cmd55 then c.answer .idle (c.now.answer 0 [])
        else c.answer .idle (c.now.answer 0x04 [])
    | _ => c

/-- A byte of a command packet, which begins with the bits 01.  The checksum is not
checked. -/
def gather (c : Card) (b : UInt8) : Card :=
  if c.command = [] ∧ b &&& 0xC0 ≠ 0x40 then c
  else
    match c.command ++ [b] with
    | [first, a3, a2, a1, a0, _] =>
        { c with command := [] }.execute (first &&& 0x3F)
          (((a3.toNat * 256 + a2.toNat) * 256 + a1.toNat) * 256 + a0.toNat)
    | command => { c with command := command }

/-- A token is received where one is expected. -/
def token (c : Card) (multiple : Bool) (target : Nat) (b : UInt8) : Card :=
  if b = (if multiple then 0xFC else 0xFE) then
    { c with activity := .receiving multiple target [] }
  else if multiple = true ∧ b = 0xFD then c.answer .idle (c.now.stuff :: c.now.busy)
  else c

/-- A block was received: it is accepted and stored if the card has the sector. -/
def program (c : Card) (multiple : Bool) (target : Nat) (data : List UInt8) : Card :=
  if h : target < c.medium.capacity ∧ data.length = 512 then
    { c with medium := c.medium.store target ⟨data, h.2⟩ }.answer
      (if multiple then .awaiting true (target + 1) else .idle)
      ((c.now.upper &&& 0xE0 ||| 0x05) :: c.now.busy)
  else
    c.answer (if multiple then .awaiting true target else .idle)
      ((c.now.upper &&& 0xE0 ||| 0x0D) :: c.now.busy)

/-- A byte is received; `free` says that the card was not sending anything. -/
def input (c : Card) (free : Bool) (b : UInt8) : Card :=
  match c.activity with
  | .idle => if free then c.gather b else c
  | .reading _ => c.gather b
  | .awaiting multiple target => if free then c.token multiple target b else c
  | .receiving multiple target got =>
      let got := got ++ [b]
      if got.length < 514 then { c with activity := .receiving multiple target got }
      else c.program multiple target (got.take 512)

/-- The next block of a read, or an error token. -/
def refill (c : Card) : Card :=
  match c.activity, c.out with
  | .reading next, [] =>
      if next < c.medium.capacity then
        c.answer (.reading (next + 1)) (c.now.dataPacket (c.medium.sectors next).val)
      else c.answer (.reading next) (List.replicate c.now.access 0xFF ++ [0x08])
  | _, _ => c

/-- One byte each way. -/
def exchange (b : UInt8) (c : Card) : UInt8 × Card :=
  if c.selected then
    let c := c.refill
    (c.out.headD 0xFF, { c with out := c.out.tail }.input c.out.isEmpty b)
  else (0xFF, c)

/-- The line that selects the card; a command packet ends when the card is deselected. -/
def select (on : Bool) (c : Card) : Card :=
  { c with selected := on, command := if on then c.command else [] }

end Card

/-- The card on the bus. -/
def card : Device Card := ⟨Card.select, Card.exchange⟩

/-- The card in its slot. -/
def cardSocket : Socket Card := { card with inserted := fun _ => true }

/-! ## What the card sends -/

namespace Card

variable {c : Card} {b : UInt8} {xs ys : List UInt8}

/-- The card takes a high line for nothing. -/
structure Listening (c : Card) : Prop where
  selected : c.selected = true
  command : c.command = []
  activity : ∀ multiple target got, c.activity ≠ .receiving multiple target got

theorem gather_high (h : c.command = []) : c.gather 0xFF = c := by
  have hhigh : (0xFF : UInt8) &&& 0xC0 ≠ 0x40 := by decide
  rw [gather, if_pos ⟨h, hhigh⟩]

theorem token_high (multiple : Bool) (target : Nat) : c.token multiple target 0xFF = c := by
  cases multiple <;> rfl

theorem Listening.input_high (h : c.Listening) (free : Bool) : c.input free 0xFF = c := by
  have hgather := gather_high h.command
  cases hactivity : c.activity with
  | idle => simp only [input, hactivity, hgather, ite_self]
  | reading next => simp only [input, hactivity, hgather]
  | awaiting multiple target => simp only [input, hactivity, token_high, ite_self]
  | receiving multiple target got => exact absurd hactivity (h.activity multiple target got)

theorem refill_of_ne_nil (h : c.out ≠ []) : c.refill = c := by
  unfold refill
  split
  · rename_i hout
    exact absurd hout h
  · rfl

theorem exchange_of_selected (h : c.selected = true) :
    c.exchange b = (c.refill.out.headD 0xFF,
      { c.refill with out := c.refill.out.tail }.input c.refill.out.isEmpty b) :=
  if_pos h

theorem Listening.withOut (h : c.Listening) (out : List UInt8) :
    Listening { c with out := out } :=
  ⟨h.selected, h.command, h.activity⟩

theorem Listening.exchange_cons (h : c.Listening) (hout : c.out = b :: ys) :
    c.exchange 0xFF = (b, { c with out := ys }) := by
  have hne : c.out ≠ [] := by
    rw [hout]
    exact List.cons_ne_nil b ys
  rw [exchange_of_selected h.selected, refill_of_ne_nil hne, hout, List.headD_cons,
    List.tail_cons, (h.withOut ys).input_high]

/-- What is in the queue is sent. -/
theorem Listening.emits (h : c.Listening) (hout : c.out = xs ++ ys) :
    card.Emits c xs { c with out := ys } := by
  induction xs generalizing c with
  | nil =>
      rw [List.nil_append] at hout
      rw [← hout]
      exact Device.emits_nil
  | cons b xs ih =>
      refine Device.emits_cons.mpr ⟨_, h.exchange_cons hout, ?_⟩
      exact ih (h.withOut (xs ++ ys)) rfl

/-! ## Command packets -/

/-- A card that takes commands: it is idle and not busy, or it sends the blocks of a read.
So far some bytes of a packet were received. -/
structure Attending (streaming : Bool) (m : Medium) (command : List UInt8) (c : Card) : Prop where
  medium : c.medium = m
  selected : c.selected = true
  command : c.command = command
  activity : if streaming then ∃ next, c.activity = .reading next
    else c.activity = .idle ∧ c.out = []

variable {streaming : Bool} {m : Medium} {command : List UInt8}

theorem Attending.withCommand (h : Attending streaming m command c) (command' : List UInt8) :
    Attending streaming m command' { c with command := command' } :=
  ⟨h.medium, h.selected, rfl, h.activity⟩

/-- Sending the next block of a read changes neither the medium nor the packet. -/
theorem Attending.refill (h : Attending true m command c) : Attending true m command c.refill := by
  obtain ⟨next, hnext⟩ := h.activity
  unfold Card.refill
  split
  · split
    · exact ⟨h.medium, h.selected, h.command, _, rfl⟩
    · exact ⟨h.medium, h.selected, h.command, _, rfl⟩
  · exact h

/-- A byte is received. -/
theorem Attending.exchange (h : Attending streaming m command c) (b : UInt8) :
    ∃ c', Attending streaming m command c' ∧ (card.exchange b c).2 = c'.gather b := by
  cases streaming with
  | false =>
      obtain ⟨hidle, hout⟩ := h.activity
      have hrefill : c.refill = c := by simp only [Card.refill, hidle]
      refine ⟨{ c with out := c.out.tail }, ⟨h.medium, h.selected, h.command, hidle, ?_⟩, ?_⟩
      · exact (congrArg List.tail hout).trans List.tail_nil
      · show (Card.exchange b c).2 = _
        rw [exchange_of_selected h.selected, hrefill]
        simp only [input, hidle, hout, List.isEmpty_nil, if_true]
  | true =>
      have hnext := h.refill
      obtain ⟨next, hreading⟩ := hnext.activity
      refine ⟨{ c.refill with out := c.refill.out.tail },
        ⟨hnext.medium, hnext.selected, hnext.command, next, hreading⟩, ?_⟩
      show (Card.exchange b c).2 = _
      rw [exchange_of_selected h.selected]
      simp only [input, hreading]

/-- The first byte of a packet. -/
theorem Attending.first (h : Attending streaming m [] c) (hb : b &&& 0xC0 = 0x40) :
    Attending streaming m [b] (card.exchange b c).2 := by
  obtain ⟨c', h', hgather⟩ := h.exchange b
  have hpacket : c'.gather b = { c' with command := [b] } := by
    rw [gather, if_neg (fun hnot => hnot.2 hb), h'.command]
    rfl
  rw [hgather, hpacket]
  exact h'.withCommand [b]

/-- A byte of a packet that is neither the first nor the last. -/
theorem Attending.next (h : Attending streaming m command c) (hne : command ≠ [])
    (hlen : command.length < 5) :
    Attending streaming m (command ++ [b]) (card.exchange b c).2 := by
  obtain ⟨c', h', hgather⟩ := h.exchange b
  have hpacket : c'.gather b = { c' with command := command ++ [b] } := by
    rw [gather, if_neg (fun hnot => hne (h'.command.symm.trans hnot.1)), h'.command]
    split
    · rename_i hsix
      have hlength := congrArg List.length hsix
      simp only [List.length_append, List.length_cons, List.length_nil] at hlength
      omega
    · rfl
  rw [hgather, hpacket]
  exact h'.withCommand (command ++ [b])

/-- The last byte of a packet. -/
theorem Attending.last {first a3 a2 a1 a0 : UInt8}
    (h : Attending streaming m [first, a3, a2, a1, a0] c) :
    ∃ c', Attending streaming m [] c' ∧ (card.exchange b c).2 = c'.execute (first &&& 0x3F)
      (((a3.toNat * 256 + a2.toNat) * 256 + a1.toNat) * 256 + a0.toNat) := by
  obtain ⟨c', h', hgather⟩ := h.exchange b
  have hne : c'.command ≠ [] := by
    rw [h'.command]
    exact List.cons_ne_nil first _
  refine ⟨{ c' with command := [] }, h'.withCommand [], ?_⟩
  rw [hgather, gather, if_neg (fun hnot => hne hnot.1), h'.command]
  rfl

/-- A command is executed when the last byte of its packet is received. -/
theorem Attending.transmit (h : Attending streaming m [] c) (cmd : UInt8) (hcmd : cmd < 64)
    (arg : UInt32) :
    ∃ c', Attending streaming m [] c' ∧
      card.transmit (commandPacket cmd arg) c = c'.execute cmd arg.toNat := by
  obtain ⟨hstart, hindex⟩ := start_bits hcmd
  have h1 := h.first hstart
  have h2 := h1.next (b := (arg >>> 24).toUInt8) (List.cons_ne_nil _ _) (by simp)
  have h3 := h2.next (b := (arg >>> 16).toUInt8) (List.cons_ne_nil _ _) (by simp)
  have h4 := h3.next (b := (arg >>> 8).toUInt8) (List.cons_ne_nil _ _) (by simp)
  have h5 := h4.next (b := arg.toUInt8) (List.cons_ne_nil _ _) (by simp)
  obtain ⟨c', h', hlast⟩ := h5.last
    (b := if cmd = cmd8 then 0x87 else if cmd = cmd0 then 0x95 else 0x01)
  rw [hindex, toNat_argument] at hlast
  exact ⟨c', h', hlast⟩

end Card

end Uiso.Sd
