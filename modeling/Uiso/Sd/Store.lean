/-
  Sd/Store.lean --- the driver and a card are a store of sectors.

      Medium.serve : what a call of the disk functions is for
      Request.call : the call itself, byte by byte, with a card on the bus

  Every sequence of calls has the results and leaves the contents that the store has, however
  long the card takes within the limits of the driver.  A write may return before the card has
  programmed the block: the card is then busy when the next call begins.
-/
import Uiso.Sd.Transfer

set_option autoImplicit false

namespace Uiso.Sd

open Uiso.Foundation.Spi

/-! ## The store -/

/-- A kind of card can be sent the number of the sector, the count is not zero, and the buffer of
a write has as many blocks. -/
def Request.Valid (kind : CardKind) : Request → Prop
  | .read sector count => kind.Addresses sector ∧ count ≠ 0
  | .write sector count blocks =>
      kind.Addresses sector ∧ count.toNat = blocks.length ∧ blocks ≠ []
  | .ioctl _ => True

/-- A transfer succeeds if the card has all of its sectors. -/
def Medium.result (m : Medium) (sector n : Nat) : DResult :=
  if sector + n ≤ m.capacity then .ok else .error

/-- What a call returns, and the contents after it. -/
def Medium.serve (m : Medium) : Request → Reply × Medium
  | .read sector count =>
      let start := sector.toNat
      (⟨m.result start count.toNat, m.bytes start (m.available start count.toNat), none⟩, m)
  | .write sector _ blocks =>
      let start := sector.toNat
      (⟨m.result start blocks.length, [], none⟩, m.write start blocks)
  | .ioctl ctrl =>
      let r := m.control ctrl
      (⟨r.1, [], r.2⟩, m)

/-- What a sequence of calls returns, and the contents after it. -/
def Medium.serveAll : Medium → List Request → List Reply × Medium
  | m, [] => ([], m)
  | m, r :: requests =>
      let first := m.serve r
      let rest := first.2.serveAll requests
      (first.1 :: rest.1, rest.2)

/-! ## The driver -/

/-- The calls of a sequence. -/
def callAll : List Request → Drive Card → List Reply × Drive Card
  | [], x => ([], x)
  | r :: requests, x =>
      let first := r.call cardSocket x
      let rest := callAll requests first.2
      (first.1 :: rest.1, rest.2)

/-- `STA_NOINIT` is clear, `CardType` is what `disk_initialize` assigns to the kind of the card on
the bus, and no call is going on. -/
structure Mounted (m : Medium) (x : Drive Card) : Prop where
  noInit : x.stat.noInit = false
  cardType : x.cardType = m.kind.assigned
  device : Quiet m x.device

variable {m : Medium} {x : Drive Card}

/-- The check passes, and the transfer is left. -/
theorem Mounted.whenReady (h : Mounted m x) (body : UInt8 → Card → Reply × Card) :
    ∃ stat : DStatus, stat.noInit = false ∧
      Sd.whenReady cardSocket 0 body x = ((body m.kind.assigned x.device).1,
        ⟨stat, m.kind.assigned, (body m.kind.assigned x.device).2⟩) := by
  have hinit : (diskStatus cardSocket 0 x).2.stat.noInit = false := by
    simp [diskStatus, h.noInit]
  have htype : (diskStatus cardSocket 0 x).2.cardType = m.kind.assigned := h.cardType
  refine ⟨(diskStatus cardSocket 0 x).2.stat, hinit, ?_⟩
  simp only [Sd.whenReady, hinit, Bool.false_eq_true, if_false, htype]
  rfl

/-- A transfer that leaves rounds is one the card does not have all sectors of. -/
theorem Medium.ofCount_eq_result (m : Medium) (sector : Nat) {n : Nat} (hn : n ≠ 0) :
    DResult.ofCount (n - m.available sector n) = m.result sector n := by
  unfold DResult.ofCount Medium.result Medium.available
  by_cases hrange : sector + n ≤ m.capacity
  · rw [if_pos hrange, if_pos (by omega)]
  · rw [if_neg hrange, if_neg (by omega)]

/-- One call. -/
theorem Mounted.call (h : Mounted m x) (r : Request) (hr : r.Valid m.kind) :
    (r.call cardSocket x).1 = (m.serve r).1 ∧ Mounted (m.serve r).2 (r.call cardSocket x).2 := by
  cases r with
  | read sector count =>
      obtain ⟨haddress, hcount⟩ := hr
      obtain ⟨c', hquiet, hread⟩ := h.device.readSectors haddress hcount
      obtain ⟨stat, hinit, hcall⟩ := h.whenReady fun cardType s =>
        let r := readSectors card cardType sector count s
        (⟨r.1.1, r.1.2, none⟩, r.2)
      have hne : count.toNat ≠ 0 := fun hzero => hcount (UInt32.toNat_inj.mp hzero)
      simp only [hread, readResult, m.ofCount_eq_result _ hne] at hcall
      exact ⟨congrArg Prod.fst hcall, (congrArg Prod.snd hcall) ▸ ⟨hinit, rfl, hquiet⟩⟩
  | write sector count blocks =>
      obtain ⟨haddress, hcount, hne⟩ := hr
      obtain ⟨c', hquiet, hwrite⟩ := h.device.writeSectors haddress count blocks hcount hne
      obtain ⟨stat, hinit, hcall⟩ := h.whenReady fun cardType s =>
        let r := writeSectors card cardType sector count (bufferOf blocks) s
        (⟨r.1, [], none⟩, r.2)
      have hlen : blocks.length ≠ 0 := fun hzero => hne (List.eq_nil_of_length_eq_zero hzero)
      simp only [hwrite, m.ofCount_eq_result _ hlen] at hcall
      exact ⟨congrArg Prod.fst hcall, (congrArg Prod.snd hcall) ▸ ⟨hinit, rfl, hquiet⟩⟩
  | ioctl ctrl =>
      obtain ⟨c', hquiet, hcontrol⟩ := h.device.control ctrl
      obtain ⟨stat, hinit, hcall⟩ := h.whenReady fun _ s =>
        let r := control card ctrl s
        (⟨r.1.1, [], r.1.2⟩, deselect card r.2)
      simp only [hcontrol] at hcall
      exact ⟨congrArg Prod.fst hcall, (congrArg Prod.snd hcall) ▸ ⟨hinit, rfl, hquiet.deselect⟩⟩

theorem Medium.kind_serve (m : Medium) (r : Request) : (m.serve r).2.kind = m.kind := by
  cases r <;> rfl

/-- A sequence of calls. -/
theorem Mounted.callAll (h : Mounted m x) (requests : List Request)
    (hvalid : ∀ r ∈ requests, r.Valid m.kind) :
    (Sd.callAll requests x).1 = (m.serveAll requests).1 ∧
      Mounted (m.serveAll requests).2 (Sd.callAll requests x).2 := by
  induction requests generalizing m x with
  | nil => exact ⟨rfl, h⟩
  | cons r requests ih =>
      rw [List.forall_mem_cons] at hvalid
      obtain ⟨hreply, hmounted⟩ := h.call r hvalid.1
      obtain ⟨hrest, hend⟩ := ih hmounted ((m.kind_serve r).symm ▸ hvalid.2)
      refine ⟨?_, hend⟩
      simp only [Sd.callAll, Medium.serveAll, hreply, hrest]

/-- Times of a card that is always a little late. -/
def smallTiming : Timing where
  response := ⟨3, by omega⟩
  access := ⟨7, by omega⟩
  busy := [0x00, 0x3F]
  busy_low := List.forall_mem_cons.mpr ⟨by decide, List.forall_mem_singleton.mpr (by decide)⟩
  busy_short := show 2 < 5000 by omega
  crc := ⟨[0x12, 0x34], rfl⟩
  stuff := 0x55
  upper := 0xE0

/-- A block of zeros. -/
def blankSector : Sector := ⟨List.replicate 512 0, List.length_replicate⟩

/-- A card of eight sectors. -/
def smallMedium : Medium where
  kind := .sdc2Block
  csd := ⟨List.replicate 16 0, List.length_replicate⟩
  capacity := 8
  sectors := fun _ => blankSector

def smallCard : Card := ⟨smallMedium, fun _ => smallTiming, 0, false, [], .idle, []⟩

theorem quiet_smallCard : Quiet smallMedium smallCard :=
  ⟨rfl, rfl, rfl, nofun, Nat.zero_le 5000⟩

/-- The driver once it has initialised the card. -/
def smallDrive : Drive Card := ⟨.zero, CardKind.sdc2Block.assigned, smallCard⟩

theorem mounted_smallDrive : Mounted smallMedium smallDrive := ⟨rfl, rfl, quiet_smallCard⟩

/-- A call leaves `n` sectors alone. -/
def Request.Spares (start n : Nat) : Request → Prop
  | .read _ _ => True
  | .write sector _ blocks => sector.toNat + blocks.length ≤ start ∨ start + n ≤ sector.toNat
  | .ioctl _ => True

/-- Two media of one capacity with the same contents in `n` sectors. -/
structure Agree (start n : Nat) (m m' : Medium) : Prop where
  capacity : m'.capacity = m.capacity
  sectors : ∀ i, start ≤ i → i < start + n → m'.sectors i = m.sectors i

variable {start n : Nat} {m' : Medium}

theorem Medium.write_of_spared (m : Medium) {sector i : Nat} {blocks : List Sector}
    (h : i < sector ∨ sector + blocks.length ≤ i) :
    (m.write sector blocks).sectors i = m.sectors i := by
  show (if sector ≤ i ∧ i < m.capacity then (blocks[i - sector]?).getD (m.sectors i)
    else m.sectors i) = m.sectors i
  split
  · rename_i hin
    rw [List.getElem?_eq_none (by omega)]
    rfl
  · rfl

theorem Agree.serve (h : Agree start n m m') {r : Request} (hr : r.Spares start n) :
    Agree start n m (m'.serve r).2 := by
  cases r with
  | read sector count => exact h
  | ioctl ctrl => exact h
  | write sector count blocks =>
      refine ⟨h.capacity, fun i hlow hhigh => ?_⟩
      show ((m'.write sector.toNat blocks).sectors i) = m.sectors i
      rw [m'.write_of_spared (by cases hr <;> omega)]
      exact h.sectors i hlow hhigh

theorem Agree.serveAll (h : Agree start n m m') {requests : List Request}
    (hr : ∀ r ∈ requests, r.Spares start n) :
    Agree start n m (m'.serveAll requests).2 := by
  induction requests generalizing m' with
  | nil => exact h
  | cons r requests ih =>
      rw [List.forall_mem_cons] at hr
      exact ih (h.serve hr.1) hr.2

theorem Agree.bytes (h : Agree start n m m') {k : Nat} (hk : k ≤ n) :
    m'.bytes start k = m.bytes start k := by
  unfold Medium.bytes
  refine List.flatMap_congr fun i hi => ?_
  rw [List.mem_range'_1] at hi
  rw [h.sectors i hi.1 (by omega)]

/-- The sectors two media agree on are read alike. -/
theorem Agree.read {sector count : UInt32} (h : Agree sector.toNat count.toNat m m') :
    (m'.serve (.read sector count)).1 = (m.serve (.read sector count)).1 := by
  simp only [Medium.serve, Medium.result, Medium.available, h.capacity]
  rw [h.bytes (Nat.min_le_left _ _)]

/-- The bytes of the sectors that were written. -/
theorem Medium.bytes_write (m : Medium) (sector : Nat) (blocks : List Sector)
    (h : sector + blocks.length ≤ m.capacity) :
    (m.write sector blocks).bytes sector blocks.length = bufferOf blocks := by
  induction blocks generalizing m sector with
  | nil => rfl
  | cons data blocks ih =>
      rw [List.length_cons] at h
      have hfirst : (m.write sector (data :: blocks)).sectors sector = data := by
        show (if sector ≤ sector ∧ sector < m.capacity then
          ((data :: blocks)[sector - sector]?).getD (m.sectors sector) else m.sectors sector) = data
        rw [if_pos ⟨Nat.le_refl _, by omega⟩, Nat.sub_self]
        rfl
      have hrest := ih (m.program sector data) (sector + 1)
        (by rw [m.capacity_program]; omega)
      rw [m.write_cons] at hrest
      rw [List.length_cons, Medium.bytes_succ, hfirst, hrest, bufferOf_cons]

theorem Medium.serve_written (m : Medium) (sector : UInt32) {count : UInt32}
    {blocks : List Sector} (hcount : count.toNat = blocks.length)
    (hfits : sector.toNat + blocks.length ≤ m.capacity) :
    ((m.write sector.toNat blocks).serve (.read sector count)).1 =
      ⟨.ok, bufferOf blocks, none⟩ := by
  have havailable : m.available sector.toNat blocks.length = blocks.length := by
    simp only [Medium.available]
    omega
  show Reply.mk (m.result sector.toNat count.toNat)
    ((m.write sector.toNat blocks).bytes sector.toNat
      (m.available sector.toNat count.toNat)) none = _
  rw [hcount, havailable, m.bytes_write _ _ hfits, Medium.result, if_pos hfits]

theorem Medium.serveAll_concat (m : Medium) (requests : List Request) (r : Request) :
    (m.serveAll (requests ++ [r])).1 =
      (m.serveAll requests).1 ++ [((m.serveAll requests).2.serve r).1] := by
  induction requests generalizing m with
  | nil => rfl
  | cons first requests ih =>
      simp only [List.cons_append, Medium.serveAll, ih]

/-- What was written to sectors the card has is read back, whatever calls come in between, as
long as these write to other sectors. -/
theorem write_reads_back (h : Mounted m x) (sector count : UInt32) (blocks : List Sector)
    (hwrite : (Request.write sector count blocks).Valid m.kind)
    (hfits : sector.toNat + blocks.length ≤ m.capacity) (between : List Request)
    (hbetween : ∀ r ∈ between, r.Valid m.kind ∧ r.Spares sector.toNat blocks.length) :
    (callAll (.write sector count blocks :: between ++ [.read sector count]) x).1.getLast? =
      some ⟨.ok, bufferOf blocks, none⟩ := by
  obtain ⟨haddress, hcount, hne⟩ := hwrite
  have hread : (Request.read sector count).Valid m.kind := by
    refine ⟨haddress, fun hzero => ?_⟩
    rw [hzero] at hcount
    exact hne (List.eq_nil_of_length_eq_zero hcount.symm)
  have hvalid : ∀ r ∈ Request.write sector count blocks :: between ++ [.read sector count],
      r.Valid m.kind := by
    rw [List.forall_mem_append, List.forall_mem_cons, List.forall_mem_singleton]
    exact ⟨⟨⟨haddress, hcount, hne⟩, fun r hr => (hbetween r hr).1⟩, hread⟩
  have hwritten : Agree sector.toNat blocks.length (m.write sector.toNat blocks)
      (m.write sector.toNat blocks) :=
    ⟨rfl, fun _ _ _ => rfl⟩
  have hagree := hwritten.serveAll fun r hr => (hbetween r hr).2
  rw [← hcount] at hagree
  rw [(h.callAll _ hvalid).1, Medium.serveAll_concat, List.getLast?_concat]
  exact congrArg some ((Agree.read hagree).trans (m.serve_written sector hcount hfits))

theorem write_reads_back_small :
    (callAll (.write 3 2 [blankSector, blankSector] ::
      [.ioctl ctrlSync, .write 6 1 [blankSector]] ++ [.read 3 2])
        smallDrive).1.getLast? =
      some ⟨.ok, bufferOf [blankSector, blankSector], none⟩ :=
  write_reads_back mounted_smallDrive 3 2 [blankSector, blankSector]
    ⟨.inl rfl, rfl, List.cons_ne_nil _ _⟩ (by decide)
    [.ioctl ctrlSync, .write 6 1 [blankSector]] (by
      simp only [List.forall_mem_cons, Request.Valid, Request.Spares]
      exact ⟨⟨trivial, trivial⟩, ⟨⟨.inl rfl, rfl, List.cons_ne_nil _ _⟩, .inr (by decide)⟩, nofun⟩)

end Uiso.Sd
