/-
  Sd/Bounds.lean --- how long a call of the disk functions can keep the bus.

  Whatever is in the slot, a call ends: every wait of src/board/sdmm.c has a limit.  The time
  is counted in bytes that are exchanged with the device, and nothing is assumed about what the
  device answers.
-/
import Uiso.Sd.Driver

set_option autoImplicit false

namespace Uiso.Sd

open Uiso.Foundation.Spi

variable {σ : Type} {dev : Device σ} (k : dev.Clock)

/-! ## Packets -/

/-- 5000 polls. -/
theorem count_waitReady (s : σ) : k.count (waitReady dev s).2 ≤ k.count s + 5000 :=
  k.poll _ 5000 0 s

theorem count_deselect (s : σ) : k.count (deselect dev s) = k.count s + 1 := by
  rw [deselect, k.exchange, k.select]

/-- A dummy byte before the wait, and one more if the device does not get ready. -/
theorem count_select (s : σ) : k.count (select dev s).2 ≤ k.count s + 5002 := by
  have hwait := count_waitReady k (dev.exchange 0xFF (dev.select true s)).2
  rw [k.exchange, k.select] at hwait
  simp only [select]
  split
  · show k.count (waitReady dev _).2 ≤ _
    omega
  · show k.count (deselect dev (waitReady dev _).2) ≤ _
    rw [count_deselect]
    omega

/-- At most 1000 bytes before the token, then the data and two bytes of checksum. -/
theorem count_rcvrDatablock (btr : Nat) (s : σ) :
    k.count (rcvrDatablock dev btr s).2 ≤ k.count s + (1002 + btr) := by
  have hpoll := k.poll (fun d => d ≠ 0xFF) 1000 0 s
  simp only [rcvrDatablock]
  split
  · show k.count (dev.poll _ 1000 0 s).2 ≤ _
    omega
  · show k.count (dev.receive 2 (dev.receive btr (dev.poll _ 1000 0 s).2).2).2 ≤ _
    rw [k.receive, k.receive]
    omega

/-- The wait, the token, 512 bytes, two of checksum and the data response. -/
theorem count_xmitDatablock (buff : List UInt8) (token : UInt8) (s : σ) :
    k.count (xmitDatablock dev buff token s).2 ≤ k.count s + 5516 := by
  have hwait := count_waitReady k s
  have hblock := length_blockOf buff
  simp only [xmitDatablock]
  split
  · split
    · show k.count (dev.exchange 0xFF (dev.receive 2 (dev.transmit (blockOf buff)
        (dev.transmit [token] (waitReady dev s).2))).2).2 ≤ _
      rw [k.exchange, k.receive, k.transmit, k.transmit, List.length_singleton]
      omega
    · show k.count (dev.transmit [token] (waitReady dev s).2) ≤ _
      rw [k.transmit, List.length_singleton]
      omega
  · show k.count (waitReady dev s).2 ≤ _
    omega

/-- Six bytes of packet, a stuff byte for CMD12, and at most ten attempts for the response. -/
theorem count_sendPacket (cmd : UInt8) (arg : UInt32) (s : σ) :
    k.count (sendPacket dev cmd arg s).2 ≤ k.count s + 17 := by
  have hpacket : k.count (dev.transmit (commandPacket cmd arg) s) = k.count s + 6 := by
    rw [k.transmit]
    rfl
  simp only [sendPacket]
  refine Nat.le_trans (k.poll _ 10 0 _) ?_
  split
  · rw [k.exchange]
    omega
  · omega

/-- The device is deselected and selected again before the packet. -/
theorem count_sendPlain (cmd : UInt8) (arg : UInt32) (s : σ) :
    k.count (sendPlain dev cmd arg s).2 ≤ k.count s + 5020 := by
  have hselect := count_select k (deselect dev s)
  rw [count_deselect] at hselect
  simp only [sendPlain]
  split
  · split
    · have hpacket := count_sendPacket k cmd arg (select dev (deselect dev s)).2
      omega
    · show k.count (select dev (deselect dev s)).2 ≤ _
      omega
  · have hpacket := count_sendPacket k cmd arg s
    omega

/-- An application command is two packets. -/
theorem count_sendCmd (cmd : UInt8) (arg : UInt32) (s : σ) :
    k.count (sendCmd dev cmd arg s).2 ≤ k.count s + 10040 := by
  have happ := count_sendPlain k cmd55 0 s
  simp only [sendCmd]
  split
  · split
    · omega
    · have hcmd := count_sendPlain k (cmd &&& 0x7F) arg (sendPlain dev cmd55 0 s).2
      omega
  · have hcmd := count_sendPlain k cmd arg s
    omega

/-- Any other command is one. -/
theorem count_sendCmd_plain {cmd : UInt8} (hcmd : cmd &&& 0x80 = 0) (arg : UInt32) (s : σ) :
    k.count (sendCmd dev cmd arg s).2 ≤ k.count s + 5020 := by
  rw [sendCmd, if_neg (not_not_intro hcmd)]
  exact count_sendPlain k cmd arg s

/-- CMD12 does not select the device again. -/
theorem count_stop (s : σ) : k.count (sendCmd dev cmd12 0 s).2 ≤ k.count s + 17 :=
  count_sendPacket k cmd12 0 s

/-! ## Transfers -/

/-- A block costs at most 1514 bytes, whether it comes or the wait for it ends. -/
theorem count_readLoop (n : Nat) (s : σ) :
    k.count (readLoop dev n s).2 ≤ k.count s + n * 1514 := by
  induction n generalizing s with
  | zero => exact Nat.le_add_right _ _
  | succ n ih =>
      have hblock := count_rcvrDatablock k 512 s
      simp only [readLoop]
      split
      · rename_i s' heq
        rw [heq] at hblock
        dsimp only at hblock ⊢
        omega
      · rename_i data s' heq
        rw [heq] at hblock
        have hrest := ih s'
        dsimp only at hblock ⊢
        omega

/-- A block costs at most 5516 bytes, whether it is accepted or not. -/
theorem count_writeLoop (n : Nat) (buff : List UInt8) (s : σ) :
    k.count (writeLoop dev n buff s).2 ≤ k.count s + n * 5516 := by
  induction n generalizing buff s with
  | zero => exact Nat.le_add_right _ _
  | succ n ih =>
      have hblock := count_xmitDatablock k buff 0xFC s
      simp only [writeLoop]
      split
      · have hrest := ih (buff.drop 512) (xmitDatablock dev buff 0xFC s).2
        omega
      · show k.count (xmitDatablock dev buff 0xFC s).2 ≤ _
        omega

/-- `disk_read` behind the check of the status: a command, the blocks, and CMD12. -/
theorem count_readSectors (cardType : UInt8) (sector count : UInt32) (s : σ) :
    k.count (readSectors dev cardType sector count s).2 ≤
      k.count s + (5038 + rounds count * 1514) := by
  simp only [readSectors]
  generalize hcmd : (if count > 1 then cmd18 else cmd17) = cmd
  have hplain : cmd &&& 0x80 = 0 := by
    rw [← hcmd]
    split <;> decide
  have hsend := count_sendCmd_plain k hplain (sectorAddress cardType sector) s
  generalize sendCmd dev cmd (sectorAddress cardType sector) s = n at hsend ⊢
  have hloop := count_readLoop k (rounds count) n.2
  split
  · rw [count_deselect]
    split
    · have hstop := count_stop k (readLoop dev (rounds count) n.2).2
      omega
    · omega
  · rw [count_deselect]
    omega

/-- One command and one block. -/
theorem count_writeSingle (sect : UInt32) (buff : List UInt8) (s : σ) :
    k.count (writeSingle dev sect buff s).2 ≤ k.count s + 10536 := by
  have hsend := count_sendCmd_plain k (show cmd24 &&& 0x80 = 0 by decide) sect s
  have hblock := count_xmitDatablock k buff 0xFE (sendCmd dev cmd24 sect s).2
  simp only [writeSingle]
  split
  · dsimp only
    omega
  · dsimp only
    omega

/-- ACMD23, a command, the blocks, and the token that ends the write. -/
theorem count_writeMultiple (cardType : UInt8) (sect count : UInt32) (buff : List UInt8) (s : σ) :
    k.count (writeMultiple dev cardType sect count buff s).2 ≤
      k.count s + (20576 + rounds count * 5516) := by
  have hannounce := count_sendCmd k acmd23 count s
  simp only [writeMultiple]
  generalize hs : (if cardType &&& ctSdc ≠ 0 then (sendCmd dev acmd23 count s).2 else s) = t
  have ht : k.count t ≤ k.count s + 10040 := by
    rw [← hs]
    split
    · exact hannounce
    · exact Nat.le_add_right _ _
  have hsend := count_sendCmd_plain k (show cmd25 &&& 0x80 = 0 by decide) sect t
  have hloop := count_writeLoop k (rounds count) buff (sendCmd dev cmd25 sect t).2
  have hstop := count_xmitDatablock k [] 0xFD
    (writeLoop dev (rounds count) buff (sendCmd dev cmd25 sect t).2).2
  split
  · dsimp only
    omega
  · dsimp only
    omega

/-- `disk_write` behind the check of the status; multiple blocks are the longer branch. -/
theorem count_writeSectors (cardType : UInt8) (sector count : UInt32) (buff : List UInt8) (s : σ) :
    k.count (writeSectors dev cardType sector count buff s).2 ≤
      k.count s + (20577 + rounds count * 5516) := by
  have hsingle := count_writeSingle k (sectorAddress cardType sector) buff s
  have hmultiple := count_writeMultiple k cardType (sectorAddress cardType sector) count buff s
  simp only [writeSectors]
  rw [count_deselect]
  split
  · omega
  · omega

/-- One command and the 16 bytes of the CSD. -/
theorem count_readSectorCount (s : σ) :
    k.count (readSectorCount dev s).2 ≤ k.count s + 6038 := by
  have hsend := count_sendCmd_plain k (show cmd9 &&& 0x80 = 0 by decide) 0 s
  have hblock := count_rcvrDatablock k 16 (sendCmd dev cmd9 0 s).2
  simp only [readSectorCount]
  split
  · split
    · rename_i csd s' heq
      rw [heq] at hblock
      dsimp only at hblock ⊢
      omega
    · rename_i s' heq
      rw [heq] at hblock
      dsimp only at hblock ⊢
      omega
  · dsimp only
    omega

/-- The switch of `disk_ioctl`; reading the CSD is its longest case. -/
theorem count_control (ctrl : UInt8) (s : σ) :
    k.count (control dev ctrl s).2 ≤ k.count s + 6038 := by
  have hselect := count_select k s
  simp only [control]
  split
  · dsimp only
    omega
  · split
    · exact count_readSectorCount k s
    · split
      · exact Nat.le_add_right _ _
      · exact Nat.le_add_right _ _

/-! ## Calls -/

/-- The bytes a call exchanges at most. -/
def Request.limit : Request → Nat
  | .read _ count => 5038 + rounds count * 1514
  | .write _ count _ => 20577 + rounds count * 5516
  | .ioctl _ => 6039

variable {sock : Socket σ} (clock : sock.toDevice.Clock)

/-- The check of the status exchanges nothing. -/
theorem count_whenReady (drv : UInt8) (body : UInt8 → σ → Reply × σ) (limit : Nat)
    (hbody : ∀ cardType s, clock.count (body cardType s).2 ≤ clock.count s + limit) (x : Drive σ) :
    clock.count (whenReady sock drv body x).2.device ≤ clock.count x.device + limit := by
  simp only [whenReady]
  split
  · exact Nat.le_add_right _ _
  · exact hbody _ x.device

/-- Every call ends, whatever is on the bus and whatever it answers. -/
theorem call_bounded (r : Request) (x : Drive σ) :
    clock.count (r.call sock x).2.device ≤ clock.count x.device + r.limit := by
  cases r with
  | read sector count =>
      exact count_whenReady clock 0 _ _
        (fun cardType s => count_readSectors clock cardType sector count s) x
  | write sector count blocks =>
      exact count_whenReady clock 0 _ _
        (fun cardType s => count_writeSectors clock cardType sector count (bufferOf blocks) s) x
  | ioctl ctrl =>
      refine count_whenReady clock 0 _ _ (fun cardType s => ?_) x
      have hcontrol := count_control clock ctrl s
      show clock.count (deselect sock.toDevice (control sock.toDevice ctrl s).2) ≤ _
      rw [count_deselect]
      exact Nat.succ_le_succ hcontrol

/-- An empty slot: the line is high. -/
def emptySlot : Socket Nat :=
  ⟨⟨fun _ n => n, fun _ n => (0xFF, n + 1)⟩, fun _ => false⟩

/-- A read from an empty slot that the driver takes for an initialised card. -/
theorem call_bounded_emptySlot :
    ((Request.read 0 1).call emptySlot ⟨.zero, 0, 0⟩).2.device ≤ 6552 :=
  call_bounded (⟨id, fun _ _ => rfl, fun _ _ => rfl⟩ : emptySlot.toDevice.Clock) (.read 0 1)
    ⟨.zero, 0, 0⟩

end Uiso.Sd
