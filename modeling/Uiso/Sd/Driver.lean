/-
  Sd/Driver.lean --- the disk driver of the SD card (src/board/sdmm.c), byte by byte.

  The functions run against any device on the bus.  `dly_us` is left out, and so are the
  results of `BOARD_SD_CARD_Send` and `BOARD_SD_CARD_Recieve`, which the macros `xmit_mmc` and
  `rcvr_mmc` drop, the supply of the card and the rate of the bus.

  `disk_initialize` tells four kinds of card apart, and assigns flags to each.
-/
import Uiso.Foundation.Spi

set_option autoImplicit false

namespace Uiso.Sd

open Uiso.Foundation.Spi

/-! ## Commands and kinds of card -/

/-- `CMD0`, GO_IDLE_STATE -/
def cmd0 : UInt8 := 0
/-- `CMD1`, SEND_OP_COND -/
def cmd1 : UInt8 := 1
/-- `CMD8`, SEND_IF_COND -/
def cmd8 : UInt8 := 8
/-- `CMD9`, SEND_CSD -/
def cmd9 : UInt8 := 9
/-- `CMD12`, STOP_TRANSMISSION -/
def cmd12 : UInt8 := 12
/-- `CMD16`, SET_BLOCKLEN -/
def cmd16 : UInt8 := 16
/-- `CMD17`, READ_SINGLE_BLOCK -/
def cmd17 : UInt8 := 17
/-- `CMD18`, READ_MULTIPLE_BLOCK -/
def cmd18 : UInt8 := 18
/-- `CMD24`, WRITE_BLOCK -/
def cmd24 : UInt8 := 24
/-- `CMD25`, WRITE_MULTIPLE_BLOCK -/
def cmd25 : UInt8 := 25
/-- `CMD55`, APP_CMD -/
def cmd55 : UInt8 := 55
/-- `CMD58`, READ_OCR -/
def cmd58 : UInt8 := 58
/-- `ACMD23`, SET_WR_BLK_ERASE_COUNT -/
def acmd23 : UInt8 := 0x80 + 23
/-- `ACMD41`, SEND_OP_COND of an SD card -/
def acmd41 : UInt8 := 0x80 + 41

/-- The kinds of card the comments of `disk_initialize` tell apart. -/
inductive CardKind where
  | mmc3
  | sdc1
  | sdc2
  | sdc2Block
  deriving DecidableEq, Repr

/-! ## The flags of a card type -/

/-- `CT_MMC3`, MMC ver 3 -/
def ctMmc3 : UInt8 := 0x01
/-- `CT_SDC1`, SD ver 1 -/
def ctSdc1 : UInt8 := 0x04
/-- `CT_SDC2`, SD ver 2+ -/
def ctSdc2 : UInt8 := 0x08
/-- `CT_SDC`, SD -/
def ctSdc : UInt8 := 0x0C
/-- `CT_BLOCK`, block addressing -/
def ctBlock : UInt8 := 0x10

/-- The flags that describe a kind of card, by the comments of the source. -/
def CardKind.flags : CardKind → UInt8
  | .mmc3 => ctMmc3
  | .sdc1 => ctSdc1
  | .sdc2 => ctSdc2
  | .sdc2Block => ctSdc2 ||| ctBlock

/-- The flags `disk_initialize` assigns to `ty`; the branch commented as SDv1 assigns those
of version 2. -/
def CardKind.assigned : CardKind → UInt8
  | .mmc3 => ctMmc3
  | .sdc1 => ctSdc2
  | .sdc2 => ctSdc2
  | .sdc2Block => ctSdc2 ||| ctBlock

/-- `ty` is not zero once a kind was assigned. -/
theorem CardKind.assigned_ne_zero (k : CardKind) : k.assigned ≠ 0 := by
  cases k <;> decide

theorem CardKind.assigned_eq_flags_iff (k : CardKind) : k.assigned = k.flags ↔ k ≠ .sdc1 := by
  cases k <;> decide

/-- `DRESULT` -/
inductive DResult where
  | ok
  | error
  | wrprt
  | notrdy
  | parerr
  deriving DecidableEq, Repr

/-- `count ? RES_ERROR : RES_OK` -/
def DResult.ofCount (count : Nat) : DResult := if count = 0 then .ok else .error

/-- A block of 512 bytes. -/
abbrev Sector := { data : List UInt8 // data.length = 512 }

/-- The bytes of a buffer. -/
def bufferOf (blocks : List Sector) : List UInt8 := blocks.flatMap Subtype.val

/-- A call of `disk_read`, `disk_write` or `disk_ioctl`. -/
inductive Request where
  | read (sector count : UInt32)
  | write (sector count : UInt32) (blocks : List Sector)
  | ioctl (ctrl : UInt8)

variable {σ : Type}

section

variable (dev : Device σ)

/-! ## Packets -/

/-- `wait_ready` -/
def waitReady (s : σ) : Bool × σ :=
  let p := dev.poll (fun d => d = 0xFF) 5000 0 s
  (p.1.1 ≠ 0, p.2)

/-- `deselect` -/
def deselect (s : σ) : σ := (dev.exchange 0xFF (dev.select false s)).2

/-- `select` -/
def select (s : σ) : Bool × σ :=
  let r := waitReady dev (dev.exchange 0xFF (dev.select true s)).2
  if r.1 then (true, r.2) else (false, deselect dev r.2)

/-- `rcvr_datablock`: the data, if it succeeds. -/
def rcvrDatablock (btr : Nat) (s : σ) : Option (List UInt8) × σ :=
  let p := dev.poll (fun d => d ≠ 0xFF) 1000 0 s
  if p.1.2 ≠ 0xFE then (none, p.2)
  else
    let data := dev.receive btr p.2
    (some data.1, (dev.receive 2 data.2).2)

/-- The 512 bytes from the start of a buffer on.  What is behind its end, which no caller
reaches, are zeros. -/
def blockOf (buff : List UInt8) : List UInt8 := (buff ++ List.replicate 512 0).take 512

/-- `xmit_datablock`; the data is not used for the token 0xFD. -/
def xmitDatablock (buff : List UInt8) (token : UInt8) (s : σ) : Bool × σ :=
  let r := waitReady dev s
  if r.1 then
    let s := dev.transmit [token] r.2
    if token ≠ 0xFD then
      let d := dev.exchange 0xFF (dev.receive 2 (dev.transmit (blockOf buff) s)).2
      (d.1 &&& 0x1F = 0x05, d.2)
    else (true, s)
  else (false, r.2)

/-- The command packet of `send_cmd`. -/
def commandPacket (cmd : UInt8) (arg : UInt32) : List UInt8 :=
  [0x40 ||| cmd, (arg >>> 24).toUInt8, (arg >>> 16).toUInt8, (arg >>> 8).toUInt8, arg.toUInt8,
    if cmd = cmd8 then 0x87 else if cmd = cmd0 then 0x95 else 0x01]

/-- The end of `send_cmd`: the command packet is sent and the response received. -/
def sendPacket (cmd : UInt8) (arg : UInt32) (s : σ) : UInt8 × σ :=
  let s := dev.transmit (commandPacket cmd arg) s
  -- A stuff byte is skipped when a read is stopped.
  let s := if cmd = cmd12 then (dev.exchange 0xFF s).2 else s
  let p := dev.poll (fun d => d &&& 0x80 = 0) 10 0 s
  (p.1.2, p.2)

/-- `send_cmd`, of a command that is not an application command. -/
def sendPlain (cmd : UInt8) (arg : UInt32) (s : σ) : UInt8 × σ :=
  if cmd ≠ cmd12 then
    let r := select dev (deselect dev s)
    if r.1 then sendPacket dev cmd arg r.2 else (0xFF, r.2)
  else sendPacket dev cmd arg s

/-- `send_cmd` -/
def sendCmd (cmd : UInt8) (arg : UInt32) (s : σ) : UInt8 × σ :=
  if cmd &&& 0x80 ≠ 0 then
    let n := sendPlain dev cmd55 0 s
    if n.1 > 1 then n else sendPlain dev (cmd &&& 0x7F) arg n.2
  else sendPlain dev cmd arg s

/-! ## The initialisation sequence -/

/-- The loops that wait for the card to leave the idle state: whether it did so within
`tmr` attempts. -/
def leaveIdle (cmd : UInt8) (arg : UInt32) : Nat → σ → Bool × σ
  | 0, s => (false, s)
  | tmr + 1, s =>
      let r := sendCmd dev cmd arg s
      if r.1 = 0 then (true, r.2) else leaveIdle cmd arg tmr r.2

/-- The end of the sequence for a card of version 1 or an MMC: leave the idle state, then
set the block length to 512. -/
def initialiseLegacy (kind : CardKind) (cmd : UInt8) (s : σ) : Option CardKind × σ :=
  let left := leaveIdle dev cmd 0 1000 s
  if left.1 then
    let r := sendCmd dev cmd16 512 left.2
    (if r.1 = 0 then some kind else none, r.2)
  else (none, left.2)

/-- The kind of a card of version 2, by the CCS bit in its OCR. -/
def kindOfOcr (ocr : List UInt8) : CardKind :=
  if ocr.getD 0 0 &&& 0x40 ≠ 0 then .sdc2Block else .sdc2

/-- The end of the sequence for a card of version 2: leave the idle state, then check the
CCS bit in the OCR. -/
def initialiseSdc2 (s : σ) : Option CardKind × σ :=
  let left := leaveIdle dev acmd41 0x40000000 1000 s
  if left.1 then
    let r := sendCmd dev cmd58 0 left.2
    if r.1 = 0 then
      let ocr := dev.receive 4 r.2
      (some (kindOfOcr ocr.1), ocr.2)
    else (none, r.2)
  else (none, left.2)

/-- The trailing bytes of the response to CMD8: the card works at 2.7-3.6V. -/
def voltageAccepted (r7 : List UInt8) : Prop := r7.getD 2 0 = 0x01 ∧ r7.getD 3 0 = 0xAA

instance (r7 : List UInt8) : Decidable (voltageAccepted r7) :=
  inferInstanceAs (Decidable (_ ∧ _))

/-- The command sequence of `disk_initialize`, from CMD0 up to CMD16 or CMD58: the kind of
card it has identified if it was completed. -/
def identify (s : σ) : Option CardKind × σ :=
  let idle := sendCmd dev cmd0 0 s
  if idle.1 = 1 then
    let ifCond := sendCmd dev cmd8 0x1AA idle.2
    if ifCond.1 = 1 then
      let r7 := dev.receive 4 ifCond.2
      if voltageAccepted r7.1 then initialiseSdc2 dev r7.2 else (none, r7.2)
    else
      let opCond := sendCmd dev acmd41 0 ifCond.2
      if opCond.1 ≤ 1 then initialiseLegacy dev .sdc1 acmd41 opCond.2
      else initialiseLegacy dev .mmc3 cmd1 opCond.2
  else (none, idle.2)

/-! ## Transfers -/

/-- The rounds of a loop that ends with `while (--count)`. -/
def rounds (count : UInt32) : Nat := if count = 0 then 4294967296 else count.toNat

/-- The argument of the commands of a transfer. -/
def sectorAddress (cardType : UInt8) (sector : UInt32) : UInt32 :=
  if cardType &&& ctBlock = 0 then sector * 512 else sector

/-- The loop of `disk_read`: the data, and the rounds that are left.  The counter is a word, so
that it is zero both before the first and after the last of 2^32 rounds. -/
def readLoop : Nat → σ → (List UInt8 × Nat) × σ
  | 0, s => (([], 0), s)
  | n + 1, s =>
      match rcvrDatablock dev 512 s with
      | (none, s) => (([], n + 1), s)
      | (some data, s) =>
          let rest := readLoop n s
          ((data ++ rest.1.1, rest.1.2), rest.2)

/-- `disk_read` behind the check of the status: the result, and what is in the buffer. -/
def readSectors (cardType : UInt8) (sector count : UInt32) (s : σ) :
    (DResult × List UInt8) × σ :=
  let cmd := if count > 1 then cmd18 else cmd17
  let n := sendCmd dev cmd (sectorAddress cardType sector) s
  if n.1 = 0 then
    let r := readLoop dev (rounds count) n.2
    let s := if cmd = cmd18 then (sendCmd dev cmd12 0 r.2).2 else r.2
    ((.ofCount (r.1.2 % 4294967296), r.1.1), deselect dev s)
  else ((.ofCount count.toNat, []), deselect dev n.2)

/-- The loop of `disk_write`: the rounds that are left. -/
def writeLoop : Nat → List UInt8 → σ → Nat × σ
  | 0, _, s => (0, s)
  | n + 1, buff, s =>
      let r := xmitDatablock dev buff 0xFC s
      if r.1 then writeLoop n (buff.drop 512) r.2 else (n + 1, r.2)

/-- The branch of `disk_write` for a single block: the value of `count` after it. -/
def writeSingle (sect : UInt32) (buff : List UInt8) (s : σ) : Nat × σ :=
  let n := sendCmd dev cmd24 sect s
  if n.1 = 0 then
    let r := xmitDatablock dev buff 0xFE n.2
    (if r.1 then 0 else 1, r.2)
  else (1, n.2)

/-- The branch of `disk_write` for multiple blocks: the value of `count` after it. -/
def writeMultiple (cardType : UInt8) (sect count : UInt32) (buff : List UInt8) (s : σ) :
    Nat × σ :=
  let s := if cardType &&& ctSdc ≠ 0 then (sendCmd dev acmd23 count s).2 else s
  let n := sendCmd dev cmd25 sect s
  if n.1 = 0 then
    let r := writeLoop dev (rounds count) buff n.2
    let stop := xmitDatablock dev [] 0xFD r.2
    (if stop.1 then r.1 % 4294967296 else 1, stop.2)
  else (count.toNat, n.2)

/-- `disk_write` behind the check of the status. -/
def writeSectors (cardType : UInt8) (sector count : UInt32) (buff : List UInt8) (s : σ) :
    DResult × σ :=
  let sect := sectorAddress cardType sector
  let r := if count = 1 then writeSingle dev sect buff s
    else writeMultiple dev cardType sect count buff s
  (.ofCount r.1, deselect dev r.2)

/-! ## The card-specific data -/

/-- The number of sectors `disk_ioctl` computes from the CSD. -/
def sectorCount (csd : List UInt8) : UInt32 :=
  let byte : Nat → UInt32 := fun i => (csd.getD i 0).toUInt32
  if (byte 0).shiftRight 6 = 1 then
    let cs : UInt32 := byte 9 + (byte 8).shiftLeft 8 + (byte 7 &&& 63).shiftLeft 16 + 1
    cs.shiftLeft 10
  else
    let n : UInt32 := (byte 5 &&& 15) + (byte 10 &&& 128).shiftRight 7 +
      (byte 9 &&& 3).shiftLeft 1 + 2
    let cs : UInt32 := (byte 8).shiftRight 6 + (byte 7).shiftLeft 2 +
      (byte 6 &&& 3).shiftLeft 10 + 1
    cs.shiftLeft (n - 9)

/-- `CTRL_SYNC` -/
def ctrlSync : UInt8 := 0
/-- `GET_SECTOR_COUNT` -/
def getSectorCount : UInt8 := 1
/-- `GET_BLOCK_SIZE` -/
def getBlockSize : UInt8 := 3

/-- The case of `GET_SECTOR_COUNT` in `disk_ioctl`. -/
def readSectorCount (s : σ) : (DResult × Option UInt32) × σ :=
  let n := sendCmd dev cmd9 0 s
  if n.1 = 0 then
    match rcvrDatablock dev 16 n.2 with
    | (some csd, s) => ((.ok, some (sectorCount csd)), s)
    | (none, s) => ((.error, none), s)
  else ((.error, none), n.2)

/-- The switch of `disk_ioctl`: the result, and what is stored. -/
def control (ctrl : UInt8) (s : σ) : (DResult × Option UInt32) × σ :=
  if ctrl = ctrlSync then
    let r := select dev s
    ((if r.1 then .ok else .error, none), r.2)
  else if ctrl = getSectorCount then readSectorCount dev s
  else if ctrl = getBlockSize then ((.ok, some 128), s)
  else ((.parerr, none), s)

/-! ## The functions of the disk -/

/-- What a function of the disk returns: its result, the bytes it has stored in the buffer of
a read, and the number it has stored. -/
structure Reply where
  result : DResult
  data : List UInt8
  value : Option UInt32
  deriving DecidableEq, Repr

/-- The status word, `STA_NOINIT` and `STA_NODISK`. -/
structure DStatus where
  noInit : Bool
  noDisk : Bool
  deriving DecidableEq, Repr

/-- The status word that is zero. -/
def DStatus.zero : DStatus := ⟨false, false⟩

/-- `Stat`, `CardType` and the device. -/
structure Drive (σ : Type) where
  stat : DStatus
  cardType : UInt8
  device : σ

/-- The device with the detect pin of its slot. -/
structure Socket (σ : Type) extends Device σ where
  /-- `BOARD_SD_CARD_IsInserted` -/
  inserted : σ → Bool

variable (sock : Socket σ)

/-- `disk_status` -/
def diskStatus (drv : UInt8) (x : Drive σ) : DStatus × Drive σ :=
  let stat := ⟨x.stat.noInit || (drv != 0), !sock.inserted x.device⟩
  (stat, { x with stat := stat })

/-- `disk_initialize`; on failure the status is that of `disk_disable`. -/
def diskInitialize (drv : UInt8) (x : Drive σ) : DStatus × Drive σ :=
  -- RES_NOTRDY is 3, which as a status word has both flags.
  if drv ≠ 0 then (⟨true, true⟩, x)
  else
    let x := (diskStatus sock drv x).2
    if x.stat = .zero then (.zero, x)
    else
      let s := (sock.receive 10 (sock.select false x.device)).2
      let r := identify sock.toDevice s
      let ty := (r.1.map CardKind.assigned).getD 0
      let x : Drive σ := ⟨if ty ≠ 0 then .zero else ⟨true, false⟩, ty, deselect sock.toDevice r.2⟩
      if ty ≠ 0 then (.zero, x) else diskStatus sock 0 x

/-- The check the three functions begin with. -/
def whenReady (drv : UInt8) (body : UInt8 → σ → Reply × σ) (x : Drive σ) : Reply × Drive σ :=
  let x := (diskStatus sock drv x).2
  if x.stat.noInit then (⟨.notrdy, [], none⟩, x)
  else
    let r := body x.cardType x.device
    (r.1, { x with device := r.2 })

/-- `disk_read` -/
def diskRead (drv : UInt8) (sector count : UInt32) : Drive σ → Reply × Drive σ :=
  whenReady sock drv fun cardType s =>
    let r := readSectors sock.toDevice cardType sector count s
    (⟨r.1.1, r.1.2, none⟩, r.2)

/-- `disk_write` -/
def diskWrite (drv : UInt8) (buff : List UInt8) (sector count : UInt32) :
    Drive σ → Reply × Drive σ :=
  whenReady sock drv fun cardType s =>
    let r := writeSectors sock.toDevice cardType sector count buff s
    (⟨r.1, [], none⟩, r.2)

/-- `disk_ioctl` -/
def diskIoctl (drv ctrl : UInt8) : Drive σ → Reply × Drive σ :=
  whenReady sock drv fun _ s =>
    let r := control sock.toDevice ctrl s
    (⟨r.1.1, [], r.1.2⟩, deselect sock.toDevice r.2)

/-- The call of a function on drive 0. -/
def Request.call : Request → Drive σ → Reply × Drive σ
  | .read sector count => diskRead sock 0 sector count
  | .write sector count blocks => diskWrite sock 0 (bufferOf blocks) sector count
  | .ioctl ctrl => diskIoctl sock 0 ctrl

end

/-! ## Command packets and blocks -/

theorem length_blockOf (buff : List UInt8) : (blockOf buff).length = 512 := by
  rw [blockOf, List.length_take, List.length_append, List.length_replicate]
  omega

theorem toNat_argument (arg : UInt32) :
    (((arg >>> 24).toUInt8.toNat * 256 + (arg >>> 16).toUInt8.toNat) * 256 +
      (arg >>> 8).toUInt8.toNat) * 256 + arg.toUInt8.toNat = arg.toNat := by
  have hbound := arg.toNat_lt
  simp only [UInt32.toNat_toUInt8, UInt32.toNat_shiftRight, UInt32.reduceToNat, Nat.reduceMod,
    Nat.shiftRight_eq_div_pow]
  omega

theorem start_bits {cmd : UInt8} (h : cmd < 64) :
    (0x40 ||| cmd) &&& 0xC0 = 0x40 ∧ (0x40 ||| cmd) &&& 0x3F = cmd := by
  have hall : ∀ n : Fin 64, (0x40 ||| UInt8.ofNat n) &&& 0xC0 = 0x40 ∧
      (0x40 ||| UInt8.ofNat n) &&& 0x3F = UInt8.ofNat n := by
    decide +kernel
  exact byte_of_values (P := fun b => (0x40 ||| b) &&& 0xC0 = 0x40 ∧ (0x40 ||| b) &&& 0x3F = b)
    hall (UInt8.lt_iff_toNat_lt.mp h)

/-- A command that is not an application command is its own index. -/
theorem index_of_plain {cmd : UInt8} (h : cmd &&& 0x80 = 0) : cmd &&& 0x7F = cmd := by
  have hall : ∀ n : Fin 256, UInt8.ofNat n &&& 0x80 = 0 →
      UInt8.ofNat n &&& 0x7F = UInt8.ofNat n := by
    decide +kernel
  exact byte_of_values (P := fun b => b &&& 0x80 = 0 → b &&& 0x7F = b) hall cmd.toNat_lt h

/-! ## What the packets do when the device answers in time -/

section

variable {dev : Device σ} {s s' : σ}

/-- The device is busy, and then ready. -/
theorem waitReady_of_emits {busy : List UInt8} (h : dev.Emits s (busy ++ [0xFF]) s')
    (hbusy : ∀ x ∈ busy, x ≠ 0xFF) (hlen : busy.length < 5000) :
    waitReady dev s = (true, s') := by
  have hpoll := h.poll 0 (fun x hx => decide_eq_false (hbusy x hx)) (decide_eq_true rfl) hlen
  have hleft : 5000 - busy.length ≠ 0 := by omega
  simp only [waitReady, hpoll, hleft, ne_eq, not_false_iff, decide_true]

/-- A token ends the wait for a data packet. -/
theorem poll_token {wait : Nat} {token : UInt8}
    (h : dev.Emits s (List.replicate wait 0xFF ++ [token]) s') (hwait : wait < 1000)
    (htoken : token ≠ 0xFF) :
    dev.poll (fun d => d ≠ 0xFF) 1000 0 s = ((1000 - wait, token), s') := by
  have hpre : ∀ x ∈ List.replicate wait (0xFF : UInt8), decide (x ≠ 0xFF) = false := by
    intro x hx
    exact decide_eq_false (not_not_intro (List.eq_of_mem_replicate hx))
  have hpoll := h.poll 0 hpre (decide_eq_true htoken) (by rwa [List.length_replicate])
  rwa [List.length_replicate] at hpoll

/-- A data packet: a token, the data and a checksum. -/
theorem rcvrDatablock_of_emits {wait : Nat} {data crc : List UInt8} {t u : σ}
    (htoken : dev.Emits s (List.replicate wait 0xFF ++ [0xFE]) t) (hwait : wait < 1000)
    (hdata : dev.Emits t data u) (hcrc : dev.Emits u crc s') (hlen : crc.length = 2) :
    rcvrDatablock dev data.length s = (some data, s') := by
  have hpoll := poll_token htoken hwait (by decide)
  simp only [rcvrDatablock, hpoll, ne_eq, not_true, if_false, hdata.receive rfl,
    hcrc.receive hlen]

/-- An error token. -/
theorem rcvrDatablock_of_error {wait btr : Nat} {token : UInt8}
    (h : dev.Emits s (List.replicate wait 0xFF ++ [token]) s') (hwait : wait < 1000)
    (hready : token ≠ 0xFF) (hdata : token ≠ 0xFE) : rcvrDatablock dev btr s = (none, s') := by
  have hpoll := poll_token h hwait hready
  simp only [rcvrDatablock, hpoll, ne_eq, hdata, not_false_iff, if_true]

/-- The response to a command that does not stop a read. -/
theorem sendPacket_of_emits {cmd r : UInt8} {arg : UInt32} {wait : Nat} (hcmd : cmd ≠ cmd12)
    (h : dev.Emits (dev.transmit (commandPacket cmd arg) s) (List.replicate wait 0xFF ++ [r]) s')
    (hwait : wait < 10) (hr : r &&& 0x80 = 0) : sendPacket dev cmd arg s = (r, s') := by
  have hpre : ∀ x ∈ List.replicate wait (0xFF : UInt8), decide (x &&& 0x80 = 0) = false := by
    intro x hx
    rw [List.eq_of_mem_replicate hx]
    decide
  have hpoll := h.poll 0 hpre (decide_eq_true hr) (by rwa [List.length_replicate])
  simp only [sendPacket, hcmd, if_false, hpoll]

/-- The response to the command that stops a read comes after a stuff byte. -/
theorem sendPacket_stop_of_emits {stuff r : UInt8} {arg : UInt32} {wait : Nat}
    (h : dev.Emits (dev.transmit (commandPacket cmd12 arg) s)
      (stuff :: (List.replicate wait 0xFF ++ [r])) s')
    (hwait : wait < 10) (hr : r &&& 0x80 = 0) : sendPacket dev cmd12 arg s = (r, s') := by
  have hpre : ∀ x ∈ List.replicate wait (0xFF : UInt8), decide (x &&& 0x80 = 0) = false := by
    intro x hx
    rw [List.eq_of_mem_replicate hx]
    decide
  obtain ⟨t, hstuff, hrest⟩ := Device.emits_cons.mp h
  have hpoll := hrest.poll 0 hpre (decide_eq_true hr) (by rwa [List.length_replicate])
  simp only [sendPacket, if_true, hstuff, hpoll]

end

end Uiso.Sd
