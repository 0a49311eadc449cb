/-
  Sd/Transfer.lean --- the transfers of the driver with a card on the bus.

  Between two calls the card is `Quiet`: idle, and maybe still busy with the last write.  Each
  function of the driver has one lemma, with the states of the card before and after it.
-/
import Uiso.Sd.Card

set_option autoImplicit false

namespace Uiso.Sd

open Uiso.Foundation.Spi

variable {c : Card} {m : Medium} {next : Nat}

/-! ## Selecting the card -/

/-- The card between two calls. -/
structure Quiet (m : Medium) (c : Card) : Prop where
  medium : c.medium = m
  command : c.command = []
  activity : c.activity = .idle
  busy : ∀ b ∈ c.out.tail, b ≠ 0xFF
  short : c.out.length ≤ 5000

/-- The card can take a command. -/
abbrev Ready (m : Medium) (c : Card) : Prop := c.Attending false m []

theorem Quiet.of_ready (h : Ready m c) : Quiet m c := by
  obtain ⟨hidle, hout⟩ := h.activity
  refine ⟨h.medium, h.command, hidle, ?_, ?_⟩
  · rw [hout]
    exact nofun
  · rw [hout]
    exact Nat.zero_le 5000

/-- The line of a card that listens and has nothing to send is high. -/
theorem exchange_silent (h : c.Listening) (hreading : ∀ next, c.activity ≠ .reading next)
    (hout : c.out = []) : card.exchange 0xFF c = (0xFF, c) := by
  have hrefill : c.refill = c := by
    unfold Card.refill
    split
    · rename_i next hactivity _
      exact absurd hactivity (hreading next)
    · rfl
  have hsame : { c with out := c.out.tail } = c := by
    rw [hout, List.tail_nil, ← hout]
  show Card.exchange 0xFF c = _
  rw [Card.exchange_of_selected h.selected, hrefill, hsame, h.input_high, hout, List.headD_nil]

/-- A card that has been busy is ready after it. -/
theorem waitReady_card (h : c.Listening) (hreading : ∀ next, c.activity ≠ .reading next)
    (hbusy : ∀ b ∈ c.out, b ≠ 0xFF) (hshort : c.out.length < 5000) :
    waitReady card c = (true, { c with out := [] }) := by
  have hemits : card.Emits c c.out { c with out := [] } := h.emits (List.append_nil _).symm
  have hready := exchange_silent (h.withOut []) hreading rfl
  have hhigh : card.Emits { c with out := [] } [0xFF] { c with out := [] } :=
    Device.emits_cons.mpr ⟨_, hready, Device.emits_nil⟩
  exact waitReady_of_emits (hemits.append hhigh) hbusy hshort

theorem Quiet.deselect (h : Quiet m c) : Quiet m (deselect card c) :=
  ⟨h.medium, rfl, h.activity, h.busy, h.short⟩

/-- The dummy byte of `select` drops at most one byte of the queue. -/
theorem dummy_byte (h : c.Listening) (hreading : ∀ next, c.activity ≠ .reading next) :
    (card.exchange 0xFF c).2 = { c with out := c.out.tail } := by
  cases hout : c.out with
  | nil =>
      rw [exchange_silent h hreading hout, List.tail_nil, ← hout]
  | cons b ys => exact congrArg Prod.snd (h.exchange_cons hout)

/-- `select` waits until the card is ready. -/
theorem Quiet.select (h : Quiet m c) :
    ∃ c', Ready m c' ∧ Sd.select card c = (true, c') := by
  have hreading : ∀ next, c.activity ≠ .reading next := by
    intro next hnext
    exact Activity.noConfusion (h.activity.symm.trans hnext)
  have hlistening : (card.select true c).Listening := by
    refine ⟨rfl, h.command, fun multiple target got hactivity => ?_⟩
    exact Activity.noConfusion (h.activity.symm.trans hactivity)
  have hshort : c.out.tail.length < 5000 := by
    have hlen := h.short
    simp only [List.length_tail]
    omega
  have hwait : waitReady card (card.exchange 0xFF (card.select true c)).2 =
      (true, { c with selected := true, out := [] }) := by
    rw [dummy_byte hlistening hreading]
    exact waitReady_card (hlistening.withOut c.out.tail) hreading h.busy hshort
  refine ⟨{ c with selected := true, out := [] },
    ⟨h.medium, rfl, h.command, h.activity, rfl⟩, ?_⟩
  simp only [Sd.select, hwait, if_true]

/-! ## Commands and their responses -/

/-- The card does not receive a block. -/
def Activity.Listens (a : Activity) : Prop :=
  ∀ multiple target got, a ≠ .receiving multiple target got

theorem Ready.listening_answer (h : Ready m c) {activity : Activity} (hactivity : activity.Listens)
    (out : List UInt8) : (c.answer activity out).Listening :=
  ⟨h.selected, h.command, hactivity⟩

theorem Ready.answer (h : Ready m c) : Ready m (c.answer .idle []) :=
  ⟨h.medium, h.selected, h.command, rfl, rfl⟩

theorem sendCmd_of_lt {cmd : UInt8} (h : cmd < 64) (arg : UInt32) (c : Card) :
    sendCmd card cmd arg c = sendPlain card cmd arg c := by
  have hall : ∀ n : Fin 64, UInt8.ofNat n &&& 0x80 = 0 := by
    decide +kernel
  have hplain : cmd &&& 0x80 = 0 :=
    byte_of_values (P := fun b => b &&& 0x80 = 0) hall (UInt8.lt_iff_toNat_lt.mp h)
  rw [sendCmd, if_neg (not_not_intro hplain)]

/-- A command is sent to the card, which answers it. -/
theorem Quiet.sendCmd (h : Quiet m c) (cmd : UInt8) (hcmd : cmd < 64) (hstop : cmd ≠ cmd12)
    (arg : UInt32) :
    ∃ c', Ready m c' ∧ ∀ (activity : Activity) (r : UInt8) (rest : List UInt8),
      c'.execute cmd arg.toNat = c'.answer activity (c'.now.answer r rest) →
      activity.Listens → r &&& 0x80 = 0 →
      Sd.sendCmd card cmd arg c = (r, c'.answer activity rest) := by
  obtain ⟨c₁, hready, hselect⟩ := h.deselect.select
  obtain ⟨c₂, hready', htransmit⟩ := hready.transmit cmd hcmd arg
  refine ⟨c₂, hready', fun activity r rest hexecute hactivity hr => ?_⟩
  have hemits : card.Emits (card.transmit (commandPacket cmd arg) c₁)
      (List.replicate c₂.now.response 0xFF ++ [r]) (c₂.answer activity rest) := by
    rw [htransmit, hexecute]
    exact (Ready.listening_answer hready' hactivity (c₂.now.answer r rest)).emits rfl
  have hpacket := sendPacket_of_emits hstop hemits c₂.now.response.isLt hr
  rw [sendCmd_of_lt hcmd]
  simp only [sendPlain, hstop, ne_eq, not_false_iff, if_true, hselect, hpacket]

/-- A command that names a sector. -/
theorem Quiet.sendCmd_addressed (h : Quiet m c) (cmd : UInt8) (hcmd : cmd < 64)
    (hstop : cmd ≠ cmd12) (arg : UInt32) {activity : Activity} (hactivity : activity.Listens)
    {rest : Card → List UInt8}
    (hexecute : ∀ c', Ready m c' → c'.execute cmd arg.toNat =
      c'.addressed (m.sectorOf arg.toNat) activity (rest c')) :
    ∃ c', Ready m c' ∧ Sd.sendCmd card cmd arg c =
      if m.sectorOf arg.toNat < m.capacity then (0, c'.answer activity (rest c'))
      else (0x40, c'.answer .idle []) := by
  obtain ⟨c', hready, hsend⟩ := h.sendCmd cmd hcmd hstop arg
  have haddressed := hexecute c' hready
  refine ⟨c', hready, ?_⟩
  rw [Card.addressed, hready.medium] at haddressed
  split
  · rename_i hrange
    rw [if_pos hrange] at haddressed
    exact hsend activity 0 (rest c') haddressed hactivity (by decide)
  · rename_i hrange
    rw [if_neg hrange] at haddressed
    exact hsend .idle 0x40 [] haddressed nofun (by decide)

/-! ## Reading -/

/-- A data packet is received from a card that sends what another one has in its queue. -/
theorem rcvrDatablock_card {r : Card} {t : Timing} {data rest : List UInt8} (h : r.Listening)
    (hout : r.out = t.dataPacket data ++ rest)
    (hsame : ∀ bytes c', bytes ≠ [] → card.Emits r bytes c' → card.Emits c bytes c') :
    rcvrDatablock card data.length c = (some data, { r with out := rest }) := by
  have hqueue : r.out = (List.replicate t.access.val 0xFF ++ [0xFE]) ++
      (data ++ (t.crc.val ++ rest)) := by
    rw [hout]
    simp only [Timing.dataPacket, List.append_assoc]
  have htoken := hsame _ _ (List.append_ne_nil_of_right_ne_nil _ (List.cons_ne_nil _ _))
    (h.emits hqueue)
  have hdata : card.Emits { r with out := data ++ (t.crc.val ++ rest) } data
      { r with out := t.crc.val ++ rest } :=
    (h.withOut _).emits rfl
  have hcrc : card.Emits { r with out := t.crc.val ++ rest } t.crc.val { r with out := rest } :=
    (h.withOut _).emits rfl
  exact rcvrDatablock_of_emits htoken t.access.isLt hdata hcrc t.crc.property

/-- The one data packet in the queue is received. -/
theorem rcvrDatablock_queue (t : Timing) (data : List UInt8) (h : c.Listening)
    (hout : c.out = t.dataPacket data) :
    rcvrDatablock card data.length c = (some data, { c with out := [] }) :=
  rcvrDatablock_card h (hout.trans (List.append_nil _).symm) (fun _ _ _ hsame => hsame)

/-- The card sends the blocks of a read, and has sent those before `next`. -/
structure Streaming (m : Medium) (next : Nat) (c : Card) : Prop where
  attending : c.Attending true m []
  activity : c.activity = .reading next
  out : c.out = []

theorem Streaming.refill (h : Streaming m next c) :
    c.refill = if next < m.capacity then
        c.answer (.reading (next + 1)) (c.now.dataPacket (m.sectors next).val)
      else c.answer (.reading next) (List.replicate c.now.access 0xFF ++ [0x08]) := by
  simp only [Card.refill, h.activity, h.out, h.attending.medium]

theorem Streaming.listening_answer (h : Streaming m next c) (next' : Nat) (out : List UInt8) :
    (c.answer (.reading next') out).Listening :=
  ⟨h.attending.selected, h.attending.command, nofun⟩

/-- A card without anything to send first puts the next block into its queue. -/
theorem Streaming.emits_of_refill (h : Streaming m next c) {bytes : List UInt8} {c' : Card}
    (hne : bytes ≠ []) (hemits : card.Emits c.refill bytes c') : card.Emits c bytes c' := by
  have hagain : c.refill.refill = c.refill := by
    apply Card.refill_of_ne_nil
    rw [h.refill]
    split
    · simp [Card.answer, Timing.dataPacket]
    · simp [Card.answer]
  have hselected : c.refill.selected = true := h.attending.refill.selected
  have hexchange : card.exchange 0xFF c = card.exchange 0xFF c.refill := by
    show Card.exchange 0xFF c = Card.exchange 0xFF c.refill
    rw [Card.exchange_of_selected h.attending.selected, Card.exchange_of_selected hselected, hagain]
  cases bytes with
  | nil => exact absurd rfl hne
  | cons b bytes =>
      rw [Device.emits_cons] at hemits ⊢
      rw [hexchange]
      exact hemits

/-- The next block of a read. -/
theorem Streaming.rcvrDatablock (h : Streaming m next c) (hrange : next < m.capacity) :
    ∃ c', Streaming m (next + 1) c' ∧
      Sd.rcvrDatablock card 512 c = (some (m.sectors next).val, c') := by
  have hrefill := h.refill
  rw [if_pos hrange] at hrefill
  have hblock := rcvrDatablock_card (t := c.now) (c := c)
    (h.listening_answer (next + 1) (c.now.dataPacket (m.sectors next).val))
    (List.append_nil _).symm
    (fun bytes c' hne hemits => h.emits_of_refill hne (hrefill.symm ▸ hemits))
  rw [(m.sectors next).property] at hblock
  exact ⟨c.answer (.reading (next + 1)) [],
    ⟨⟨h.attending.medium, h.attending.selected, h.attending.command, next + 1, rfl⟩, rfl, rfl⟩,
    hblock⟩

/-- There is no next block. -/
theorem Streaming.rcvrDatablock_end (h : Streaming m next c) (hrange : ¬ next < m.capacity) :
    ∃ c', c'.Attending true m [] ∧ Sd.rcvrDatablock card 512 c = (none, c') := by
  have hrefill := h.refill
  rw [if_neg hrange] at hrefill
  have hemits : card.Emits c.refill (List.replicate c.now.access 0xFF ++ [0x08])
      (c.answer (.reading next) []) := by
    rw [hrefill]
    exact (h.listening_answer next _).emits (List.append_nil _).symm
  have htoken := h.emits_of_refill
    (List.append_ne_nil_of_right_ne_nil _ (List.cons_ne_nil _ _)) hemits
  exact ⟨c.answer (.reading next) [],
    ⟨h.attending.medium, h.attending.selected, h.attending.command, next, rfl⟩,
    rcvrDatablock_of_error htoken c.now.access.isLt (by decide) (by decide)⟩

theorem Medium.available_succ {n : Nat} (h : next < m.capacity) :
    m.available next (n + 1) = m.available (next + 1) n + 1 := by
  simp only [Medium.available]
  omega

theorem Medium.available_end {n : Nat} (h : ¬ next < m.capacity) : m.available next n = 0 := by
  simp only [Medium.available]
  omega

theorem Medium.bytes_succ (m : Medium) (n : Nat) :
    m.bytes next (n + 1) = (m.sectors next).val ++ m.bytes (next + 1) n := by
  simp only [Medium.bytes, List.range'_succ, List.flatMap_cons]

/-- The loop of a read receives the blocks the card has. -/
theorem Streaming.readLoop (h : Streaming m next c) (n : Nat) :
    ∃ c', c'.Attending true m [] ∧ Sd.readLoop card n c =
      ((m.bytes next (m.available next n), n - m.available next n), c') := by
  induction n generalizing next c with
  | zero => exact ⟨c, h.attending, by simp [Sd.readLoop, Medium.available, Medium.bytes]⟩
  | succ n ih =>
      by_cases hrange : next < m.capacity
      · obtain ⟨c₁, h₁, hblock⟩ := h.rcvrDatablock hrange
        obtain ⟨c₂, h₂, hloop⟩ := ih h₁
        refine ⟨c₂, h₂, ?_⟩
        rw [Medium.available_succ hrange, Medium.bytes_succ, Nat.add_sub_add_right]
        simp only [Sd.readLoop, hblock, hloop]
      · obtain ⟨c₁, h₁, hblock⟩ := h.rcvrDatablock_end hrange
        refine ⟨c₁, h₁, ?_⟩
        rw [Medium.available_end hrange]
        simp only [Sd.readLoop, hblock, Medium.bytes, List.range'_zero, List.flatMap_nil,
          Nat.sub_zero]

/-- A read is stopped, in whatever block the card is. -/
theorem stop_card (h : c.Attending true m []) : Quiet m (sendCmd card cmd12 0 c).2 := by
  obtain ⟨c', h', htransmit⟩ := h.transmit cmd12 (by decide) 0
  have hlistening : (c'.answer .idle (c'.now.stuff :: c'.now.answer 0 c'.now.busy)).Listening :=
    ⟨h'.selected, h'.command, nofun⟩
  have hemits : card.Emits (card.transmit (commandPacket cmd12 0) c)
      (c'.now.stuff :: (List.replicate c'.now.response 0xFF ++ [0]))
      (c'.answer .idle c'.now.busy) := by
    rw [htransmit]
    exact hlistening.emits rfl
  have hpacket := sendPacket_stop_of_emits hemits c'.now.response.isLt (by decide)
  rw [sendCmd_of_lt (by decide)]
  simp only [sendPlain, ne_eq, not_true, if_false, hpacket]
  refine ⟨h'.medium, h'.command, rfl, ?_, ?_⟩
  · exact fun b hb => c'.now.busy_low b (List.mem_of_mem_tail hb)
  · exact Nat.le_of_lt c'.now.busy_short

/-! ## Addresses -/

/-- The number of a sector can be sent to a card.  A card without block addressing is given the
address of a byte, in 32 bits. -/
def CardKind.Addresses (k : CardKind) (sector : UInt32) : Prop :=
  k = .sdc2Block ∨ sector.toNat < 8388608

/-- The flag of `CardType` is right about block addressing, for a card of version 1 too. -/
theorem assigned_block_iff (k : CardKind) : k.assigned &&& ctBlock = 0 ↔ k ≠ .sdc2Block := by
  cases k <;> decide

theorem Medium.sectorOf_sectorAddress {sector : UInt32} (h : m.kind.Addresses sector) :
    m.sectorOf (sectorAddress m.kind.assigned sector).toNat = sector.toNat := by
  unfold sectorAddress Medium.sectorOf
  by_cases hblock : m.kind = .sdc2Block
  · rw [if_pos hblock, if_neg (fun hflag => (assigned_block_iff _).mp hflag hblock)]
  · have hlow := h.resolve_left hblock
    have hbyte : (sector * 512).toNat = sector.toNat * 512 % 4294967296 := UInt32.toNat_mul ..
    rw [if_neg hblock, if_pos ((assigned_block_iff _).mpr hblock)]
    omega

/-! ## `disk_read` -/

theorem execute_cmd17 (h : Ready m c) (arg : Nat) :
    c.execute cmd17 arg = c.addressed (m.sectorOf arg) .idle
      (c.now.dataPacket (m.sectors (m.sectorOf arg)).val) := by
  rw [← h.medium]
  simp only [Card.execute, h.activity.1]
  rfl

theorem execute_cmd18 (h : Ready m c) (arg : Nat) :
    c.execute cmd18 arg = c.addressed (m.sectorOf arg) (.reading (m.sectorOf arg)) [] := by
  rw [← h.medium]
  simp only [Card.execute, h.activity.1]
  rfl

/-- What `disk_read` returns for a card: the blocks the card has, and an error if these are
not all. -/
def readResult (m : Medium) (sector count : UInt32) : DResult × List UInt8 :=
  let available := m.available sector.toNat count.toNat
  (.ofCount (count.toNat - available), m.bytes sector.toNat available)

theorem readResult_end {sector : UInt32} (count : UInt32)
    (hrange : ¬ sector.toNat < m.capacity) :
    readResult m sector count = (.ofCount count.toNat, []) := by
  simp only [readResult, Medium.available_end hrange, Nat.sub_zero, Medium.bytes, List.range'_zero,
    List.flatMap_nil]

/-- The card has no first block: the command is refused. -/
theorem readSectors_refused {cardType cmd r : UInt8} {sector count : UInt32} {c' : Card}
    (hcmd : (if count > 1 then cmd18 else cmd17) = cmd) (hr : r ≠ 0)
    (hsend : sendCmd card cmd (sectorAddress cardType sector) c = (r, c')) :
    readSectors card cardType sector count c =
      ((.ofCount count.toNat, []), deselect card c') := by
  simp only [readSectors, hcmd, hsend, hr, if_false]

/-- The card has the first block: the loop and what follows it. -/
theorem readSectors_accepted {cardType cmd : UInt8} {sector count : UInt32} {c' c'' : Card}
    {data : List UInt8} {left : Nat} (hcmd : (if count > 1 then cmd18 else cmd17) = cmd)
    (hsend : sendCmd card cmd (sectorAddress cardType sector) c = (0, c'))
    (hloop : readLoop card (rounds count) c' = ((data, left), c'')) :
    readSectors card cardType sector count c = ((.ofCount (left % 4294967296), data),
      deselect card (if cmd = cmd18 then (sendCmd card cmd12 0 c'').2 else c'')) := by
  simp only [readSectors, hcmd, hsend, if_true, hloop]

/-- The loop for the one block of CMD17. -/
theorem readLoop_one (t : Timing) (data : Sector) (h : c.Listening)
    (hout : c.out = t.dataPacket data.val) :
    readLoop card 1 c = ((data.val, 0), { c with out := [] }) := by
  have hblock := rcvrDatablock_queue t data.val h hout
  rw [data.property] at hblock
  simp only [readLoop, hblock, List.append_nil]

theorem Activity.listens_idle : Activity.idle.Listens := fun _ _ _ => nofun

theorem Activity.listens_reading : (Activity.reading next).Listens := fun _ _ _ => nofun

/-- A single block is read. -/
theorem Quiet.readSingle (h : Quiet m c) {sector : UInt32} (haddress : m.kind.Addresses sector) :
    ∃ c', Quiet m c' ∧
      readSectors card m.kind.assigned sector 1 c = (readResult m sector 1, c') := by
  obtain ⟨c₁, hready, hsend⟩ := h.sendCmd_addressed cmd17 (by decide) (by decide)
    (sectorAddress m.kind.assigned sector) Activity.listens_idle
    (fun c' hready => execute_cmd17 hready _)
  rw [Medium.sectorOf_sectorAddress haddress] at hsend
  refine ⟨_, (Quiet.of_ready (Ready.answer hready)).deselect, ?_⟩
  by_cases hrange : sector.toNat < m.capacity
  · rw [if_pos hrange] at hsend
    have hloop := readLoop_one c₁.now (m.sectors sector.toNat)
      (Ready.listening_answer hready Activity.listens_idle _) rfl
    have hone : m.available sector.toNat 1 = 1 := by
      simp only [Medium.available]
      omega
    have hresult : readResult m sector 1 =
        (.ofCount (0 % 4294967296), (m.sectors sector.toNat).val) := by
      simp [readResult, hone, Medium.bytes]
    rw [hresult]
    exact readSectors_accepted (by decide) hsend hloop
  · rw [if_neg hrange] at hsend
    rw [readResult_end 1 hrange]
    exact readSectors_refused (by decide) (by decide) hsend

/-- Multiple blocks are read. -/
theorem Quiet.readMultiple (h : Quiet m c) {sector count : UInt32}
    (haddress : m.kind.Addresses sector) (hcount : 1 < count) :
    ∃ c', Quiet m c' ∧
      readSectors card m.kind.assigned sector count c = (readResult m sector count, c') := by
  obtain ⟨c₁, hready, hsend⟩ := h.sendCmd_addressed cmd18 (by decide) (by decide)
    (sectorAddress m.kind.assigned sector) Activity.listens_reading
    (fun c' hready => execute_cmd18 hready _)
  rw [Medium.sectorOf_sectorAddress haddress] at hsend
  have hcmd : (if count > 1 then cmd18 else cmd17) = cmd18 := if_pos hcount
  by_cases hrange : sector.toNat < m.capacity
  · rw [if_pos hrange] at hsend
    have hstream : Streaming m sector.toNat (c₁.answer (.reading sector.toNat) []) :=
      ⟨⟨hready.medium, hready.selected, hready.command, _, rfl⟩, rfl, rfl⟩
    obtain ⟨c₂, hattending, hloop⟩ := hstream.readLoop (rounds count)
    refine ⟨_, (stop_card hattending).deselect, ?_⟩
    have hrounds : rounds count = count.toNat := by
      refine if_neg fun hzero => ?_
      rw [hzero] at hcount
      exact absurd hcount (by decide)
    have hleft : (count.toNat - m.available sector.toNat count.toNat) % 4294967296 =
        count.toNat - m.available sector.toNat count.toNat :=
      Nat.mod_eq_of_lt (Nat.lt_of_le_of_lt (Nat.sub_le _ _) count.toNat_lt)
    rw [readSectors_accepted hcmd hsend hloop, if_pos rfl, hrounds, hleft]
    rfl
  · rw [if_neg hrange] at hsend
    rw [readResult_end count hrange]
    exact ⟨_, (Quiet.of_ready (Ready.answer hready)).deselect,
      readSectors_refused hcmd (by decide) hsend⟩

/-- `disk_read` behind the check of the status. -/
theorem Quiet.readSectors (h : Quiet m c) {sector count : UInt32}
    (haddress : m.kind.Addresses sector) (hcount : count ≠ 0) :
    ∃ c', Quiet m c' ∧
      Sd.readSectors card m.kind.assigned sector count c = (readResult m sector count, c') := by
  by_cases hone : count = 1
  · rw [hone]
    exact h.readSingle haddress
  · refine h.readMultiple haddress ?_
    rw [UInt32.lt_iff_toNat_lt, UInt32.toNat_one]
    have hzero' : count.toNat ≠ 0 := fun hzero => hcount (UInt32.toNat_inj.mp hzero)
    have hone' : count.toNat ≠ 1 := fun h => hone (UInt32.toNat_inj.mp h)
    omega

/-! ## Writing -/

/-- The card has taken what it was sent, and may be busy. -/
structure Settled (m : Medium) (activity : Activity) (c : Card) : Prop where
  medium : c.medium = m
  selected : c.selected = true
  command : c.command = []
  activity : c.activity = activity
  busy : ∀ b ∈ c.out, b ≠ 0xFF
  short : c.out.length < 5000

theorem Settled.quiet (h : Settled m .idle c) : Quiet m c :=
  ⟨h.medium, h.command, h.activity, fun b hb => h.busy b (List.mem_of_mem_tail hb),
    Nat.le_of_lt h.short⟩

theorem Ready.settled (h : Ready m c) (activity : Activity) :
    Settled m activity (c.answer activity []) :=
  ⟨h.medium, h.selected, h.command, rfl, nofun, Nat.zero_lt_succ 4999⟩

variable {multiple : Bool} {target : Nat}

theorem Settled.waitReady (h : Settled m (.awaiting multiple target) c) :
    Sd.waitReady card c = (true, { c with out := [] }) := by
  have hlistening : c.Listening := by
    refine ⟨h.selected, h.command, fun _ _ _ hactivity => ?_⟩
    exact Activity.noConfusion (h.activity.symm.trans hactivity)
  have hreading : ∀ next, c.activity ≠ .reading next := by
    intro next hnext
    exact Activity.noConfusion (h.activity.symm.trans hnext)
  exact waitReady_card hlistening hreading h.busy h.short

/-- A byte is sent to a card that awaits a token. -/
theorem exchange_awaiting (hselected : c.selected = true)
    (hactivity : c.activity = .awaiting multiple target) (hout : c.out = []) (b : UInt8) :
    (card.exchange b c).2 = c.token multiple target b := by
  have hrefill : c.refill = c := by simp only [Card.refill, hactivity]
  have hsame : { c with out := c.out.tail } = c := by
    rw [hout, List.tail_nil, ← hout]
  show (Card.exchange b c).2 = _
  rw [Card.exchange_of_selected hselected, hrefill, hsame]
  simp only [Card.input, hactivity, hout, List.isEmpty_nil, if_true]

/-- The card receives a block for a sector, and has received some bytes of it. -/
def receivingCard (c : Card) (multiple : Bool) (target : Nat) (got : List UInt8) : Card :=
  { c with activity := .receiving multiple target got, out := [] }

/-- One more byte of the block. -/
theorem exchange_receiving (h : c.selected = true) (got : List UInt8) (b : UInt8) :
    card.exchange b (receivingCard c multiple target got) = (0xFF, if got.length < 513
      then receivingCard c multiple target (got ++ [b])
      else (receivingCard c multiple target got).program multiple target
        ((got ++ [b]).take 512)) := by
  have hlen : (got ++ [b]).length < 514 ↔ got.length < 513 := by
    rw [List.length_append, List.length_singleton]
    omega
  show Card.exchange b (receivingCard c multiple target got) = _
  rw [Card.exchange_of_selected (c := receivingCard c multiple target got) h]
  simp only [receivingCard, Card.refill, Card.input, List.headD_nil, List.tail_nil, hlen]

/-- The bytes of the block, before the end of its checksum. -/
theorem transmit_receiving (h : c.selected = true) {got data : List UInt8}
    (hlen : got.length + data.length < 514) :
    card.transmit data (receivingCard c multiple target got) =
      receivingCard c multiple target (got ++ data) := by
  induction data generalizing got with
  | nil =>
      rw [List.append_nil]
      rfl
  | cons b data ih =>
      rw [List.length_cons] at hlen
      have hrest : (got ++ [b]).length + data.length < 514 := by
        rw [List.length_append, List.length_singleton]
        omega
      simp only [Device.transmit, exchange_receiving h, if_pos (show got.length < 513 by omega)]
      rw [ih hrest, List.append_assoc]
      rfl

/-- A block is stored if the card has the sector. -/
def Medium.program (m : Medium) (target : Nat) (data : Sector) : Medium :=
  if target < m.capacity then m.store target data else m

/-- The sector the card expects after a block that was, or was not, accepted. -/
def Medium.following (m : Medium) (target : Nat) : Nat :=
  if target < m.capacity then target + 1 else target

/-- What the card does after a block. -/
def nextActivity (m : Medium) (multiple : Bool) (target : Nat) : Activity :=
  if multiple then .awaiting true (m.following target) else .idle

/-- The five bits of a data response, whatever the others are. -/
theorem response_bits (upper : UInt8) :
    (upper &&& 0xE0 ||| 0x05) &&& 0x1F = 0x05 ∧ (upper &&& 0xE0 ||| 0x0D) &&& 0x1F ≠ 0x05 := by
  have hall : ∀ n : Fin 256, (UInt8.ofNat n &&& 0xE0 ||| 0x05) &&& 0x1F = 0x05 ∧
      (UInt8.ofNat n &&& 0xE0 ||| 0x0D) &&& 0x1F ≠ 0x05 := by
    decide +kernel
  exact byte_of_values
    (P := fun b => (b &&& 0xE0 ||| 0x05) &&& 0x1F = 0x05 ∧ (b &&& 0xE0 ||| 0x0D) &&& 0x1F ≠ 0x05)
    hall upper.toNat_lt

theorem nextActivity_listens (m : Medium) (multiple : Bool) (target : Nat) :
    (nextActivity m multiple target).Listens := by
  cases multiple with
  | false => exact Activity.listens_idle
  | true => exact fun _ _ _ => nofun

/-- What the card answers to a block says whether it has the sector. -/
theorem exchange_program (hmedium : c.medium = m) (hselected : c.selected = true)
    (hcommand : c.command = []) (data : Sector) (multiple : Bool) (target : Nat) :
    ∃ r c', card.exchange 0xFF (c.program multiple target data.val) = (r, c') ∧
      decide (r &&& 0x1F = 0x05) = decide (target < m.capacity) ∧
      Settled (m.program target data) (nextActivity m multiple target) c' := by
  obtain ⟨haccepted, hrejected⟩ := response_bits c.now.upper
  have hlistens := nextActivity_listens m multiple target
  subst hmedium
  by_cases hrange : target < c.medium.capacity
  · have hprogram : c.program multiple target data.val =
        { c with medium := c.medium.program target data }.answer
          (nextActivity c.medium multiple target)
          ((c.now.upper &&& 0xE0 ||| 0x05) :: c.now.busy) := by
      rw [Card.program, dif_pos ⟨hrange, data.property⟩]
      simp only [nextActivity, Medium.program, Medium.following, if_pos hrange]
    rw [hprogram]
    refine ⟨_, _, Card.Listening.exchange_cons ⟨hselected, hcommand, hlistens⟩ rfl, ?_, ?_⟩
    · rw [decide_eq_true hrange, decide_eq_true haccepted]
    · exact ⟨rfl, hselected, hcommand, rfl, c.now.busy_low, c.now.busy_short⟩
  · have hprogram : c.program multiple target data.val =
        { c with medium := c.medium.program target data }.answer
          (nextActivity c.medium multiple target)
          ((c.now.upper &&& 0xE0 ||| 0x0D) :: c.now.busy) := by
      rw [Card.program, dif_neg (fun h => hrange h.1)]
      simp only [nextActivity, Medium.program, Medium.following, if_neg hrange]
    rw [hprogram]
    refine ⟨_, _, Card.Listening.exchange_cons ⟨hselected, hcommand, hlistens⟩ rfl, ?_, ?_⟩
    · rw [decide_eq_false hrange, decide_eq_false hrejected]
    · exact ⟨rfl, hselected, hcommand, rfl, c.now.busy_low, c.now.busy_short⟩

/-- The checksum of a block is what is sent while two bytes are read. -/
theorem receive_checksum (h : c.selected = true) (data : Sector) :
    (card.receive 2 (receivingCard c multiple target data.val)).2 =
      (receivingCard c multiple target (data.val ++ [0xFF])).program multiple target
        data.val := by
  have hfirst : data.val.length < 513 := by
    rw [data.property]
    decide
  have hsecond : ¬ (data.val ++ [0xFF]).length < 513 := by
    rw [List.length_append, data.property]
    decide
  simp only [Device.receive, exchange_receiving h, if_pos hfirst, if_neg hsecond]
  rw [List.append_assoc, List.take_left' data.property]

theorem blockOf_append (data : Sector) (rest : List UInt8) :
    blockOf (data.val ++ rest) = data.val := by
  rw [blockOf, List.append_assoc, List.take_left' data.property]

/-- A block is sent. -/
theorem Settled.xmitDatablock (h : Settled m (.awaiting multiple target) c) (data : Sector)
    (rest : List UInt8) :
    ∃ c', Settled (m.program target data) (nextActivity m multiple target) c' ∧
      Sd.xmitDatablock card (data.val ++ rest) (if multiple then 0xFC else 0xFE) c =
        (decide (target < m.capacity), c') := by
  have htoken : card.transmit [if multiple then 0xFC else 0xFE] { c with out := [] } =
      receivingCard c multiple target [] := by
    have hbyte := exchange_awaiting (c := { c with out := [] }) h.selected h.activity rfl
      (if multiple then 0xFC else 0xFE)
    rw [Card.token, if_pos rfl] at hbyte
    exact hbyte
  have hdata : card.transmit data.val (receivingCard c multiple target []) =
      receivingCard c multiple target data.val :=
    transmit_receiving h.selected (by rw [data.property]; decide)
  obtain ⟨r, c', hresponse, hr, hsettled⟩ :=
    exchange_program (c := receivingCard c multiple target (data.val ++ [0xFF])) h.medium
      h.selected h.command data multiple target
  have hne : (if multiple = true then (0xFC : UInt8) else 0xFE) ≠ 0xFD := by
    cases multiple <;> decide
  refine ⟨c', hsettled, ?_⟩
  simp only [Sd.xmitDatablock, h.waitReady, if_true, htoken, hne, ne_eq, not_false_iff,
    blockOf_append, hdata, receive_checksum h.selected data, hresponse, hr]

/-- The token that ends a write. -/
theorem Settled.stop (h : Settled m (.awaiting true target) c) :
    ∃ c', Quiet m c' ∧ Sd.xmitDatablock card [] 0xFD c = (true, c') := by
  have htoken : card.transmit [0xFD] { c with out := [] } =
      c.answer .idle (c.now.stuff :: c.now.busy) :=
    exchange_awaiting (c := { c with out := [] }) h.selected h.activity rfl 0xFD
  refine ⟨c.answer .idle (c.now.stuff :: c.now.busy),
    ⟨h.medium, h.command, rfl, c.now.busy_low, c.now.busy_short⟩, ?_⟩
  simp only [Sd.xmitDatablock, h.waitReady, if_true, htoken, ne_eq, not_true, if_false]

/-! ## `disk_write` -/

/-- The blocks are stored in the sectors from one on, as far as the card has them. -/
def Medium.write (m : Medium) (sector : Nat) (blocks : List Sector) : Medium :=
  { m with sectors := fun i =>
      if sector ≤ i ∧ i < m.capacity then (blocks[i - sector]?).getD (m.sectors i)
      else m.sectors i }

theorem Medium.write_nil (m : Medium) (sector : Nat) : m.write sector [] = m := by
  simp [Medium.write]

theorem Medium.write_end {sector : Nat} (h : ¬ sector < m.capacity) (blocks : List Sector) :
    m.write sector blocks = m := by
  have hsame : (m.write sector blocks).sectors = m.sectors := by
    funext i
    exact if_neg (fun hi => h (Nat.lt_of_le_of_lt hi.1 hi.2))
  exact congrArg (fun sectors => { m with sectors := sectors }) hsame

/-- Writing the first block and then the others. -/
theorem Medium.write_cons (m : Medium) (sector : Nat) (data : Sector) (blocks : List Sector) :
    (m.program sector data).write (sector + 1) blocks = m.write sector (data :: blocks) := by
  by_cases hrange : sector < m.capacity
  · have hsectors : ((m.store sector data).write (sector + 1) blocks).sectors =
        (m.write sector (data :: blocks)).sectors := by
      funext i
      show (if sector + 1 ≤ i ∧ i < m.capacity then
          (blocks[i - (sector + 1)]?).getD (Function.update m.sectors sector data i)
        else Function.update m.sectors sector data i) =
        if sector ≤ i ∧ i < m.capacity then ((data :: blocks)[i - sector]?).getD (m.sectors i)
        else m.sectors i
      rcases Nat.lt_trichotomy i sector with hlt | heq | hgt
      · rw [if_neg (by omega), if_neg (by omega), Function.update_of_ne (by omega)]
      · subst heq
        rw [if_neg (by omega), if_pos ⟨Nat.le_refl i, hrange⟩, Function.update_self]
        simp
      · obtain ⟨k, rfl⟩ := Nat.exists_eq_add_of_lt hgt
        have hleft : sector + k + 1 - (sector + 1) = k := by omega
        have hright : sector + k + 1 - sector = k + 1 := by omega
        rw [Function.update_of_ne (by omega), hleft, hright, List.getElem?_cons_succ]
        by_cases hcap : sector + k + 1 < m.capacity
        · rw [if_pos ⟨by omega, hcap⟩, if_pos ⟨by omega, hcap⟩]
        · rw [if_neg (fun h => hcap h.2), if_neg (fun h => hcap h.2)]
    rw [Medium.program, if_pos hrange]
    exact congrArg (fun sectors => { m with sectors := sectors }) hsectors
  · rw [Medium.program, if_neg hrange, Medium.write_end hrange,
      Medium.write_end (fun h => hrange (Nat.lt_of_succ_lt h))]

theorem Medium.capacity_program (m : Medium) (sector : Nat) (data : Sector) :
    (m.program sector data).capacity = m.capacity := by
  unfold Medium.program
  split <;> rfl

theorem bufferOf_cons (data : Sector) (blocks : List Sector) :
    bufferOf (data :: blocks) = data.val ++ bufferOf blocks := List.flatMap_cons

/-- The loop of a write stores the blocks the card has sectors for. -/
theorem Settled.writeLoop (h : Settled m (.awaiting true target) c) (blocks : List Sector) :
    ∃ target' c', Settled (m.write target blocks) (.awaiting true target') c' ∧
      Sd.writeLoop card blocks.length (bufferOf blocks) c =
        (blocks.length - m.available target blocks.length, c') := by
  induction blocks generalizing m target c with
  | nil =>
      refine ⟨target, c, ?_, ?_⟩
      · rw [m.write_nil]
        exact h
      · simp only [Sd.writeLoop, List.length_nil, Nat.zero_sub]
  | cons data blocks ih =>
      obtain ⟨c₁, h₁, hblock⟩ := h.xmitDatablock data (bufferOf blocks)
      by_cases hrange : target < m.capacity
      · have hnext : nextActivity m true target = .awaiting true (target + 1) := by
          simp only [nextActivity, Medium.following, if_pos hrange, if_true]
        rw [hnext] at h₁
        obtain ⟨target', c₂, h₂, hloop⟩ := ih h₁
        refine ⟨target', c₂, m.write_cons target data blocks ▸ h₂, ?_⟩
        have havailable : (m.program target data).available (target + 1) blocks.length =
            m.available (target + 1) blocks.length := by
          simp only [Medium.available, m.capacity_program]
        rw [havailable] at hloop
        rw [List.length_cons, Medium.available_succ hrange, Nat.add_sub_add_right, bufferOf_cons]
        simp only [if_true, decide_eq_true hrange] at hblock
        simp only [Sd.writeLoop, hblock, if_true, List.drop_left' data.property, hloop]
      · have hsame : m.program target data = m := if_neg hrange
        rw [hsame] at h₁
        refine ⟨m.following target, c₁, ?_, ?_⟩
        · rw [Medium.write_end hrange]
          exact h₁
        · rw [List.length_cons, Medium.available_end hrange, Nat.sub_zero, bufferOf_cons]
          simp only [if_true, decide_eq_false hrange] at hblock
          simp only [Sd.writeLoop, hblock, Bool.false_eq_true, if_false]

theorem execute_cmd24 (h : Ready m c) (arg : Nat) :
    c.execute cmd24 arg = c.addressed (m.sectorOf arg) (.awaiting false (m.sectorOf arg)) [] := by
  rw [← h.medium]
  simp only [Card.execute, h.activity.1]
  rfl

theorem execute_cmd25 (h : Ready m c) (arg : Nat) :
    c.execute cmd25 arg = c.addressed (m.sectorOf arg) (.awaiting true (m.sectorOf arg)) [] := by
  rw [← h.medium]
  simp only [Card.execute, h.activity.1]
  rfl

theorem Activity.listens_awaiting : (Activity.awaiting multiple target).Listens :=
  fun _ _ _ => nofun

/-- A command the card acknowledges, and nothing else. -/
theorem Quiet.acknowledged (h : Quiet m c) (cmd : UInt8) (hcmd : cmd = 23 ∨ cmd = cmd55)
    (arg : UInt32) : ∃ c', Quiet m c' ∧ sendPlain card cmd arg c = (0, c') := by
  have hlt : cmd < 64 := by
    rcases hcmd with rfl | rfl <;> decide
  have hstop : cmd ≠ cmd12 := by
    rcases hcmd with rfl | rfl <;> decide
  obtain ⟨c', hready, hsend⟩ := h.sendCmd cmd hlt hstop arg
  have hexecute : c'.execute cmd arg.toNat = c'.answer .idle (c'.now.answer 0 []) := by
    simp only [Card.execute, hready.activity.1]
    rcases hcmd with rfl | rfl <;> rfl
  refine ⟨_, Quiet.of_ready (Ready.answer hready), ?_⟩
  rw [← sendCmd_of_lt hlt]
  exact hsend .idle 0 [] hexecute Activity.listens_idle (by decide)

/-- The number of blocks is announced. -/
theorem Quiet.announce (h : Quiet m c) (count : UInt32) :
    Quiet m (Sd.sendCmd card acmd23 count c).2 := by
  obtain ⟨c₁, h₁, happ⟩ := h.acknowledged cmd55 (.inr rfl) 0
  obtain ⟨c₂, h₂, hcount⟩ := h₁.acknowledged 23 (.inl rfl) count
  have hacmd : acmd23 &&& 0x80 ≠ 0 := by decide
  have hplain : acmd23 &&& 0x7F = 23 := by decide
  have hzero : ¬ (0 : UInt8) > 1 := by decide
  rw [Sd.sendCmd, if_pos hacmd]
  simp only [happ, if_neg hzero, hplain, hcount]
  exact h₂

/-- A single block is written. -/
theorem Quiet.writeSingle (h : Quiet m c) {sector : UInt32} (haddress : m.kind.Addresses sector)
    (data : Sector) :
    ∃ c', Quiet (m.write sector.toNat [data]) c' ∧
      Sd.writeSingle card (sectorAddress m.kind.assigned sector) (bufferOf [data]) c =
        (1 - m.available sector.toNat 1, c') := by
  obtain ⟨c₁, hready, hsend⟩ := h.sendCmd_addressed cmd24 (by decide) (by decide)
    (sectorAddress m.kind.assigned sector) Activity.listens_awaiting
    (fun c' hready => execute_cmd24 hready _)
  rw [Medium.sectorOf_sectorAddress haddress] at hsend
  rw [← m.write_cons, Medium.write_nil]
  by_cases hrange : sector.toNat < m.capacity
  · rw [if_pos hrange] at hsend
    obtain ⟨c₂, hsettled, hblock⟩ :=
      (Ready.settled hready (.awaiting false sector.toNat)).xmitDatablock data []
    simp only [Bool.false_eq_true, if_false, decide_eq_true hrange] at hblock
    have havailable : 1 - m.available sector.toNat 1 = 0 := by
      simp only [Medium.available]
      omega
    refine ⟨c₂, hsettled.quiet, ?_⟩
    rw [havailable, bufferOf_cons]
    simp only [Sd.writeSingle, hsend, if_true, bufferOf, List.flatMap_nil, hblock]
  · rw [if_neg hrange] at hsend
    have hsame : m.program sector.toNat data = m := if_neg hrange
    have hrefused : (0x40 : UInt8) ≠ 0 := by decide
    rw [hsame, Medium.available_end hrange]
    refine ⟨c₁.answer .idle [], Quiet.of_ready (Ready.answer hready), ?_⟩
    simp only [Sd.writeSingle, hsend, if_neg hrefused, Nat.sub_zero]

/-- Multiple blocks are written. -/
theorem Quiet.writeMultiple (h : Quiet m c) {sector : UInt32} (haddress : m.kind.Addresses sector)
    (count : UInt32) (blocks : List Sector) (hcount : count.toNat = blocks.length)
    (hne : blocks ≠ []) :
    ∃ c', Quiet (m.write sector.toNat blocks) c' ∧
      Sd.writeMultiple card m.kind.assigned (sectorAddress m.kind.assigned sector) count
        (bufferOf blocks) c =
        (blocks.length - m.available sector.toNat blocks.length, c') := by
  have hannounced : Quiet m (if m.kind.assigned &&& ctSdc ≠ 0 then
      (Sd.sendCmd card acmd23 count c).2 else c) := by
    split
    · exact h.announce count
    · exact h
  obtain ⟨c₁, hready, hsend⟩ := hannounced.sendCmd_addressed cmd25 (by decide) (by decide)
    (sectorAddress m.kind.assigned sector) Activity.listens_awaiting
    (fun c' hready => execute_cmd25 hready _)
  rw [Medium.sectorOf_sectorAddress haddress] at hsend
  have hrounds : rounds count = blocks.length := by
    rw [← hcount]
    refine if_neg fun hzero => hne (List.eq_nil_of_length_eq_zero ?_)
    rw [← hcount, hzero]
    rfl
  by_cases hrange : sector.toNat < m.capacity
  · rw [if_pos hrange] at hsend
    obtain ⟨target', c₂, hsettled, hloop⟩ := (Ready.settled hready _).writeLoop blocks
    obtain ⟨c₃, hquiet, hstop⟩ := hsettled.stop
    refine ⟨c₃, hquiet, ?_⟩
    have hleft : (blocks.length - m.available sector.toNat blocks.length) % 4294967296 =
        blocks.length - m.available sector.toNat blocks.length := by
      rw [← hcount]
      exact Nat.mod_eq_of_lt (Nat.lt_of_le_of_lt (Nat.sub_le _ _) count.toNat_lt)
    simp only [Sd.writeMultiple, hsend, if_true, hrounds, hloop, hstop, hleft]
  · rw [if_neg hrange] at hsend
    have hrefused : (0x40 : UInt8) ≠ 0 := by decide
    rw [Medium.write_end hrange, Medium.available_end hrange, Nat.sub_zero]
    refine ⟨c₁.answer .idle [], Quiet.of_ready (Ready.answer hready), ?_⟩
    simp only [Sd.writeMultiple, hsend, if_neg hrefused, hcount]

/-- `disk_write` behind the check of the status. -/
theorem Quiet.writeSectors (h : Quiet m c) {sector : UInt32} (haddress : m.kind.Addresses sector)
    (count : UInt32) (blocks : List Sector) (hcount : count.toNat = blocks.length)
    (hne : blocks ≠ []) :
    ∃ c', Quiet (m.write sector.toNat blocks) c' ∧
      Sd.writeSectors card m.kind.assigned sector count (bufferOf blocks) c =
        (.ofCount (blocks.length - m.available sector.toNat blocks.length), c') := by
  by_cases hone : count = 1
  · subst hone
    obtain ⟨data, rfl⟩ := List.length_eq_one_iff.mp hcount.symm
    obtain ⟨c', hquiet, hwrite⟩ := h.writeSingle haddress data
    refine ⟨_, hquiet.deselect, ?_⟩
    simp only [Sd.writeSectors, if_true, hwrite, List.length_singleton]
  · obtain ⟨c', hquiet, hwrite⟩ := h.writeMultiple haddress count blocks hcount hne
    refine ⟨_, hquiet.deselect, ?_⟩
    simp only [Sd.writeSectors, if_neg hone, hwrite]

/-! ## `disk_ioctl` -/

theorem execute_cmd9 (h : Ready m c) (arg : Nat) :
    c.execute cmd9 arg = c.answer .idle (c.now.answer 0 (c.now.dataPacket m.csd.val)) := by
  rw [← h.medium]
  simp only [Card.execute, h.activity.1]
  rfl

theorem Quiet.readSectorCount (h : Quiet m c) :
    ∃ c', Quiet m c' ∧
      Sd.readSectorCount card c = ((.ok, some (sectorCount m.csd.val)), c') := by
  obtain ⟨c₁, hready, hsend⟩ := h.sendCmd cmd9 (by decide) (by decide) 0
  have hresponse := hsend _ _ _ (execute_cmd9 hready _) Activity.listens_idle (by decide)
  have hblock := rcvrDatablock_queue c₁.now m.csd.val
    (Ready.listening_answer hready Activity.listens_idle (c₁.now.dataPacket m.csd.val)) rfl
  rw [m.csd.property] at hblock
  refine ⟨c₁.answer .idle [], Quiet.of_ready (Ready.answer hready), ?_⟩
  simp only [Sd.readSectorCount, hresponse, if_true, hblock]
  rfl

/-- What the switch of `disk_ioctl` returns and stores. -/
def Medium.control (m : Medium) (ctrl : UInt8) : DResult × Option UInt32 :=
  if ctrl = ctrlSync then (.ok, none)
  else if ctrl = getSectorCount then (.ok, some (sectorCount m.csd.val))
  else if ctrl = getBlockSize then (.ok, some 128)
  else (.parerr, none)

/-- The switch of `disk_ioctl`. -/
theorem Quiet.control (h : Quiet m c) (ctrl : UInt8) :
    ∃ c', Quiet m c' ∧ Sd.control card ctrl c = (m.control ctrl, c') := by
  unfold Sd.control Medium.control
  split
  · obtain ⟨c', hready, hselect⟩ := h.select
    refine ⟨c', Quiet.of_ready hready, ?_⟩
    simp only [hselect, if_true]
  · split
    · exact h.readSectorCount
    · split
      · exact ⟨c, h, rfl⟩
      · exact ⟨c, h, rfl⟩

end Uiso.Sd
