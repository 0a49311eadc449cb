/-
  Sd/Kept.lean --- what the functions of the SD card driver leave alone.

  Whatever they do, the functions of src/board/sdmm.c put few things on the bus: the select
  line, high bytes, command packets, blocks behind a token, and the token that ends a write.
  A property of the device that none of these destroys is kept by all of them (`Kept`).
-/
import Uiso.Sd.Driver

set_option autoImplicit false

namespace Uiso.Sd

open Uiso.Foundation.Spi

variable {σ : Type} {dev : Device σ} {cmds : List UInt8} {I : σ → Prop}

/-- A property no use of the bus destroys, with packets of the commands `cmds`. -/
structure Kept (dev : Device σ) (cmds : List UInt8) (I : σ → Prop) : Prop where
  select : ∀ on s, I s → I (dev.select on s)
  high : ∀ s, I s → I (dev.exchange 0xFF s).2
  packet : ∀ cmd ∈ cmds, ∀ arg s, I s → I (dev.transmit (commandPacket cmd arg) s)
  stop : ∀ s, I s → I (dev.transmit [0xFD] s)
  block : ∀ (token : UInt8) (data : List UInt8) (s : σ), token = 0xFE ∨ token = 0xFC →
    data.length = 512 → I s → I (dev.receive 2 (dev.transmit data (dev.transmit [token] s))).2

/-- A property that every byte and the select line keep. -/
theorem Kept.of_bytes (hselect : ∀ on s, I s → I (dev.select on s))
    (hexchange : ∀ b s, I s → I (dev.exchange b s).2) : Kept dev cmds I := by
  have htransmit : ∀ (bytes : List UInt8) (s : σ), I s → I (dev.transmit bytes s) := by
    intro bytes
    induction bytes with
    | nil => exact fun _ h => h
    | cons b bytes ih => exact fun s h => ih _ (hexchange b s h)
  have hreceive : ∀ (n : Nat) (s : σ), I s → I (dev.receive n s).2 := by
    intro n
    induction n with
    | zero => exact fun _ h => h
    | succ n ih => exact fun s h => ih _ (hexchange 0xFF s h)
  refine ⟨hselect, hexchange 0xFF, fun _ _ _ => htransmit _, htransmit _, ?_⟩
  intro token data s _ _ h
  exact hreceive 2 _ (htransmit data _ (htransmit [token] s h))

namespace Kept

variable (k : Kept dev cmds I)
include k

/-! ## Packets -/

theorem receive (n : Nat) {s : σ} (h : I s) : I (dev.receive n s).2 := by
  induction n generalizing s with
  | zero => exact h
  | succ n ih => exact ih (k.high s h)

theorem poll (stop : UInt8 → Bool) (n : Nat) (last : UInt8) {s : σ} (h : I s) :
    I (dev.poll stop n last s).2 := by
  induction n generalizing last s with
  | zero => exact h
  | succ n ih =>
      simp only [Device.poll]
      split
      · exact k.high s h
      · exact ih _ (k.high s h)

theorem waitReady {s : σ} (h : I s) : I (Sd.waitReady dev s).2 := k.poll _ 5000 0 h

theorem deselect {s : σ} (h : I s) : I (Sd.deselect dev s) := k.high _ (k.select false s h)

theorem selects {s : σ} (h : I s) : I (Sd.select dev s).2 := by
  have hwait := k.waitReady (k.high _ (k.select true s h))
  simp only [Sd.select]
  split
  · exact hwait
  · exact k.deselect hwait

theorem rcvrDatablock (btr : Nat) {s : σ} (h : I s) : I (Sd.rcvrDatablock dev btr s).2 := by
  have hpoll := k.poll (fun d => d ≠ 0xFF) 1000 0 h
  simp only [Sd.rcvrDatablock]
  split
  · exact hpoll
  · exact k.receive 2 (k.receive btr hpoll)

theorem xmitDatablock (buff : List UInt8) (token : UInt8)
    (htoken : token = 0xFE ∨ token = 0xFC ∨ token = 0xFD) {s : σ} (h : I s) :
    I (Sd.xmitDatablock dev buff token s).2 := by
  have hwait := k.waitReady h
  simp only [Sd.xmitDatablock]
  split
  · split
    · rename_i hne
      have hdata : token = 0xFE ∨ token = 0xFC := by
        rcases htoken with htoken | htoken | htoken
        · exact .inl htoken
        · exact .inr htoken
        · exact absurd htoken hne
      exact k.high _ (k.block token _ _ hdata (length_blockOf buff) hwait)
    · rename_i hstop
      rw [not_not.mp hstop]
      exact k.stop _ hwait
  · exact hwait

theorem sendPacket {cmd : UInt8} (hcmd : cmd ∈ cmds) (arg : UInt32) {s : σ} (h : I s) :
    I (Sd.sendPacket dev cmd arg s).2 := by
  have hpacket := k.packet cmd hcmd arg s h
  simp only [Sd.sendPacket]
  split
  · exact k.poll _ 10 0 (k.high _ hpacket)
  · exact k.poll _ 10 0 hpacket

theorem sendPlain {cmd : UInt8} (hcmd : cmd ∈ cmds) (arg : UInt32) {s : σ} (h : I s) :
    I (Sd.sendPlain dev cmd arg s).2 := by
  have hselect := k.selects (k.deselect h)
  simp only [Sd.sendPlain]
  split
  · split
    · exact k.sendPacket hcmd arg hselect
    · exact hselect
  · exact k.sendPacket hcmd arg h

/-- A command whose own packet, and that of CMD55 before it, are among the packets. -/
theorem sendCmd (cmd : UInt8) (hplain : cmd &&& 0x80 = 0 → cmd ∈ cmds)
    (happ : cmd &&& 0x80 ≠ 0 → cmd55 ∈ cmds ∧ cmd &&& 0x7F ∈ cmds) (arg : UInt32) {s : σ}
    (h : I s) : I (Sd.sendCmd dev cmd arg s).2 := by
  simp only [Sd.sendCmd]
  split
  · rename_i hbit
    have hfirst := k.sendPlain (happ hbit).1 0 h
    split
    · exact hfirst
    · exact k.sendPlain (happ hbit).2 arg hfirst
  · rename_i hbit
    exact k.sendPlain (hplain (not_not.mp hbit)) arg h

end Kept

/-! ## The initialisation sequence -/

/-- The commands of the initialisation. -/
def initialiseCommands : List UInt8 :=
  [cmd0, cmd1, cmd8, cmd16, acmd41 &&& 0x7F, cmd55, cmd58]

namespace Kept

variable (k : Kept dev initialiseCommands I)
include k

theorem leaveIdle {cmd : UInt8} (hcmd : cmd = acmd41 ∨ cmd = cmd1) (arg : UInt32) (tmr : Nat)
    {s : σ} (h : I s) : I (Sd.leaveIdle dev cmd arg tmr s).2 := by
  induction tmr generalizing s with
  | zero => exact h
  | succ tmr ih =>
      have hsend : I (Sd.sendCmd dev cmd arg s).2 := by
        rcases hcmd with rfl | rfl
        · exact k.sendCmd acmd41 (by decide) (by decide) arg h
        · exact k.sendCmd cmd1 (by decide) (by decide) arg h
      simp only [Sd.leaveIdle]
      split
      · exact hsend
      · exact ih hsend

theorem initialiseLegacy (kind : CardKind) {cmd : UInt8} (hcmd : cmd = acmd41 ∨ cmd = cmd1)
    {s : σ} (h : I s) : I (Sd.initialiseLegacy dev kind cmd s).2 := by
  have hleft := k.leaveIdle hcmd 0 1000 h
  simp only [Sd.initialiseLegacy]
  split
  · exact k.sendCmd cmd16 (by decide) (by decide) 512 hleft
  · exact hleft

theorem initialiseSdc2 {s : σ} (h : I s) : I (Sd.initialiseSdc2 dev s).2 := by
  have hleft := k.leaveIdle (.inl rfl) 0x40000000 1000 h
  have hocr := k.sendCmd cmd58 (by decide) (by decide) 0 hleft
  simp only [Sd.initialiseSdc2]
  split
  · split
    · exact k.receive 4 hocr
    · exact hocr
  · exact hleft

theorem identify {s : σ} (h : I s) : I (Sd.identify dev s).2 := by
  have hidle := k.sendCmd cmd0 (by decide) (by decide) 0 h
  have hcond := k.sendCmd cmd8 (by decide) (by decide) 0x1AA hidle
  have hop := k.sendCmd acmd41 (by decide) (by decide) 0 hcond
  simp only [Sd.identify]
  split
  · split
    · split
      · exact k.initialiseSdc2 (k.receive 4 hcond)
      · exact k.receive 4 hcond
    · split
      · exact k.initialiseLegacy .sdc1 (.inl rfl) hop
      · exact k.initialiseLegacy .mmc3 (.inr rfl) hop
  · exact hidle

end Kept

/-! ## A device that leaves the line high -/

namespace Kept

variable (hhigh : ∀ s, I s → (dev.exchange 0xFF s).1 = 0xFF)
include hhigh

theorem poll_high (k : Kept dev cmds I) (stop : UInt8 → Bool) {n : Nat} (hn : n ≠ 0)
    (last : UInt8) {s : σ} (h : I s) : (dev.poll stop n last s).1.2 = 0xFF := by
  induction n generalizing last s with
  | zero => exact absurd rfl hn
  | succ n ih =>
      simp only [Device.poll]
      split
      · exact hhigh s h
      · by_cases hzero : n = 0
        · subst hzero
          exact hhigh s h
        · exact ih hzero _ (k.high s h)

theorem sendPacket_high (k : Kept dev cmds I) {cmd : UInt8} (hcmd : cmd ∈ cmds) (arg : UInt32)
    {s : σ} (h : I s) : (Sd.sendPacket dev cmd arg s).1 = 0xFF := by
  have hpacket := k.packet cmd hcmd arg s h
  simp only [Sd.sendPacket]
  split
  · exact k.poll_high hhigh _ (by decide) 0 (k.high _ hpacket)
  · exact k.poll_high hhigh _ (by decide) 0 hpacket

theorem sendPlain_high (k : Kept dev cmds I) {cmd : UInt8} (hcmd : cmd ∈ cmds) (arg : UInt32)
    {s : σ} (h : I s) : (Sd.sendPlain dev cmd arg s).1 = 0xFF := by
  have hselect := k.selects (k.deselect h)
  simp only [Sd.sendPlain]
  split
  · split
    · exact k.sendPacket_high hhigh hcmd arg hselect
    · rfl
  · exact k.sendPacket_high hhigh hcmd arg h

/-- Nothing is identified without an answer to CMD0. -/
theorem identify_high (k : Kept dev initialiseCommands I) {s : σ} (h : I s) :
    (Sd.identify dev s).1 = none := by
  have hidle : (Sd.sendCmd dev cmd0 0 s).1 = 0xFF :=
    k.sendPlain_high hhigh (List.mem_cons_self) 0 h
  have hanswer : ¬(0xFF : UInt8) = 1 := by decide
  simp only [Sd.identify, hidle, hanswer, if_false]

end Kept

/-! ## Transfers -/

/-- The commands of the transfers. -/
def transferCommands : List UInt8 :=
  [cmd9, cmd12, cmd17, cmd18, cmd24, cmd25, cmd55, acmd23 &&& 0x7F]

namespace Kept

section

variable (k : Kept dev transferCommands I)
include k

theorem readLoop (n : Nat) {s : σ} (h : I s) : I (Sd.readLoop dev n s).2 := by
  induction n generalizing s with
  | zero => exact h
  | succ n ih =>
      have hblock := k.rcvrDatablock 512 h
      simp only [Sd.readLoop]
      split
      · rename_i s' heq
        rw [heq] at hblock
        exact hblock
      · rename_i data s' heq
        rw [heq] at hblock
        exact ih hblock

theorem writeLoop (n : Nat) (buff : List UInt8) {s : σ} (h : I s) :
    I (Sd.writeLoop dev n buff s).2 := by
  induction n generalizing buff s with
  | zero => exact h
  | succ n ih =>
      have hblock := k.xmitDatablock buff 0xFC (.inr (.inl rfl)) h
      simp only [Sd.writeLoop]
      split
      · exact ih _ hblock
      · exact hblock

theorem readSectors (cardType : UInt8) (sector count : UInt32) {s : σ} (h : I s) :
    I (Sd.readSectors dev cardType sector count s).2 := by
  simp only [Sd.readSectors]
  generalize hcmd : (if count > 1 then cmd18 else cmd17) = cmd
  have hmem : cmd ∈ transferCommands ∧ cmd &&& 0x80 = 0 := by
    rw [← hcmd]
    split <;> decide
  have hsend := k.sendCmd cmd (fun _ => hmem.1) (fun happ => absurd hmem.2 happ)
    (sectorAddress cardType sector) h
  split
  · have hloop := k.readLoop (rounds count) hsend
    split
    · exact k.deselect (k.sendCmd cmd12 (by decide) (by decide) 0 hloop)
    · exact k.deselect hloop
  · exact k.deselect hsend

theorem writeSingle (sect : UInt32) (buff : List UInt8) {s : σ} (h : I s) :
    I (Sd.writeSingle dev sect buff s).2 := by
  have hsend := k.sendCmd cmd24 (by decide) (by decide) sect h
  simp only [Sd.writeSingle]
  split
  · exact k.xmitDatablock buff 0xFE (.inl rfl) hsend
  · exact hsend

theorem writeMultiple (cardType : UInt8) (sect count : UInt32) (buff : List UInt8) {s : σ}
    (h : I s) : I (Sd.writeMultiple dev cardType sect count buff s).2 := by
  simp only [Sd.writeMultiple]
  generalize hs : (if cardType &&& ctSdc ≠ 0 then (Sd.sendCmd dev acmd23 count s).2 else s) = t
  have ht : I t := by
    rw [← hs]
    split
    · exact k.sendCmd acmd23 (by decide) (by decide) count h
    · exact h
  have hsend := k.sendCmd cmd25 (by decide) (by decide) sect ht
  split
  · exact k.xmitDatablock [] 0xFD (.inr (.inr rfl)) (k.writeLoop _ buff hsend)
  · exact hsend

theorem writeSectors (cardType : UInt8) (sector count : UInt32) (buff : List UInt8) {s : σ}
    (h : I s) : I (Sd.writeSectors dev cardType sector count buff s).2 := by
  simp only [Sd.writeSectors]
  refine k.deselect ?_
  split
  · exact k.writeSingle _ buff h
  · exact k.writeMultiple cardType _ count buff h

theorem readSectorCount {s : σ} (h : I s) : I (Sd.readSectorCount dev s).2 := by
  have hsend := k.sendCmd cmd9 (by decide) (by decide) 0 h
  have hblock := k.rcvrDatablock 16 hsend
  simp only [Sd.readSectorCount]
  split
  · split
    · rename_i csd s' heq
      rw [heq] at hblock
      exact hblock
    · rename_i s' heq
      rw [heq] at hblock
      exact hblock
  · exact hsend

theorem control (ctrl : UInt8) {s : σ} (h : I s) : I (Sd.control dev ctrl s).2 := by
  simp only [Sd.control]
  split
  · exact k.selects h
  · split
    · exact k.readSectorCount h
    · split
      · exact h
      · exact h

end

/-- What the bus keeps is kept by every transfer. -/
theorem call {sock : Socket σ} (k : Kept sock.toDevice transferCommands I) (r : Request)
    {x : Drive σ} (h : I x.device) : I (r.call sock x).2.device := by
  have hready : ∀ body : UInt8 → σ → Reply × σ, (∀ cardType s, I s → I (body cardType s).2) →
      I (whenReady sock 0 body x).2.device := by
    intro body hbody
    simp only [whenReady]
    split
    · exact h
    · exact hbody _ _ h
  cases r with
  | read sector count => exact hready _ fun cardType s hs => k.readSectors cardType sector count hs
  | write sector count blocks =>
      exact hready _ fun cardType s hs => k.writeSectors cardType sector count _ hs
  | ioctl ctrl => exact hready _ fun _ s hs => k.deselect (k.control ctrl hs)

end Kept

end Uiso.Sd
