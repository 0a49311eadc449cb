/-
  Sd/Trust.lean --- whether the driver is right about the card that is in the slot.

  The slot holds any card, and a log of the commands and answers that have gone over the bus
  since a card was put in or taken out.  An empty slot leaves the line high, so that every byte
  received from it is 0xFF.

      Slot.Ready       : the log of the slot completes the initialisation sequence, and
                         CardType describes the card it is completed with
      disk             : cards are put in and taken out, functions of the driver are called
      TrustJustified   : whenever a function took the card for initialised, it was ready
-/
import Uiso.Foundation.Machine
import Uiso.Sd.Sequence

set_option autoImplicit false

namespace Uiso.Sd

open Uiso.Foundation
open Uiso.Foundation.Spi

/-! ## The slot -/

/-- The slot: the card, and the record of the bus since the card was put in. -/
structure Slot (σ : Type) where
  card : Option σ
  record : Record

variable {σ : Type}

/-- A slot nothing has gone to. -/
def Slot.fresh (card : Option σ) : Slot σ := ⟨card, .fresh⟩

/-- The slot on the bus, with its detect pin. -/
def socket (dev : Device σ) : Socket (Slot σ) where
  select on s := ⟨s.card.map (dev.select on), s.record.select on⟩
  exchange b s :=
    let r := (s.card.map (dev.exchange b)).elim (0xFF, none) fun r => (r.1, some r.2)
    (r.1, ⟨r.2, s.record.exchange b r.1⟩)
  inserted s := s.card.isSome

/-- The record of the slot is that of the bus. -/
def recorder (dev : Device σ) : Recorder (socket dev).toDevice :=
  ⟨Slot.record, fun _ _ => rfl, fun _ _ => rfl⟩

/-- The card in the slot has completed the initialisation sequence since it was put in, and the
card type describes it. -/
def Slot.Ready (slot : Slot σ) (cardType : UInt8) : Prop :=
  slot.card.isSome = true ∧
    ∃ kind, progress slot.record.log = .done kind ∧ cardType = kind.flags

/-! ## Calls and slot events -/

/-- The driver with the slot.  The last two fields are not part of the source: whether a card
was taken out after the last initialisation that was completed, and the slot and `CardType`
at every call that has taken the card for initialised. -/
structure Disk (σ : Type) where
  drive : Drive (Slot σ)
  removed : Bool
  trusted : List (Slot σ × UInt8)

/-- The driver after reset. -/
def Disk.start : Disk σ := ⟨⟨⟨true, false⟩, 0, .fresh none⟩, false, []⟩

/-- The slot. -/
def Disk.slot (d : Disk σ) : Slot σ := d.drive.device

/-- A card is taken out or put in, or a function of the driver is called on drive 0. -/
inductive DiskAction (σ : Type) where
  | remove
  | insert (card : σ)
  | status
  | initialise
  | transfer (r : Request)

/-- A call has, or has not, taken the card for initialised. -/
def Disk.trust (accepted : Bool) (seen : Slot σ × UInt8) (d : Disk σ) : Disk σ :=
  { d with trusted := d.trusted ++ if accepted then [seen] else [] }

variable (dev : Device σ)

/-- `disk_initialize` returns 0 although `disk_status` was not 0. -/
def Disk.completes (d : Disk σ) : Prop :=
  (diskStatus (socket dev) 0 d.drive).1 ≠ .zero ∧
    (diskInitialize (socket dev) 0 d.drive).1 = .zero

instance (d : Disk σ) : Decidable (d.completes dev) := inferInstanceAs (Decidable (_ ∧ _))

/-- One call or slot event. -/
def diskStep (d : Disk σ) : DiskAction σ → Disk σ
  | .remove => { d with drive := { d.drive with device := .fresh none }, removed := true }
  | .insert card =>
      if d.slot.card.isSome then d
      else { d with drive := { d.drive with device := .fresh (some card) } }
  | .status => { d with drive := (diskStatus (socket dev) 0 d.drive).2 }
  | .initialise =>
      let r := diskInitialize (socket dev) 0 d.drive
      Disk.trust (r.1 = .zero) (r.2.device, r.2.cardType)
        { d with drive := r.2, removed := if d.completes dev then false else d.removed }
  | .transfer r =>
      -- Only a call that does not get past its check returns RES_NOTRDY.
      let reply := r.call (socket dev) d.drive
      Disk.trust (reply.1.result ≠ .notrdy) (d.slot, d.drive.cardType) { d with drive := reply.2 }

/-- The driver with its slot. -/
def disk : Machine (Disk σ) (DiskAction σ) := ⟨fun d a => some (diskStep dev d a)⟩

/-- Every call that has taken the card for initialised was right. -/
def TrustJustified (d : Disk σ) : Prop := ∀ seen ∈ d.trusted, seen.1.Ready seen.2

/-- No card was taken out after the last initialisation that was completed, and the card in the
slot has not completed it as a card of version 1. -/
def Disk.Undisturbed (d : Disk σ) : Prop :=
  d.removed = false ∧ progress d.slot.record.log ≠ .done .sdc1

/-- What has to hold when a function is called: if it takes the card for initialised, the card
is undisturbed. -/
def Safe (d : Disk σ) : DiskAction σ → Prop
  | .initialise =>
      (diskInitialize (socket dev) 0 d.drive).1 = .zero → (diskStep dev d .initialise).Undisturbed
  | .transfer _ => d.drive.stat.noInit = false → d.Undisturbed
  | _ => True

theorem trustJustified_trust (accepted : Bool) (seen : Slot σ × UInt8) (d : Disk σ) :
    TrustJustified (d.trust accepted seen) ↔
      TrustJustified d ∧ (accepted = true → seen.1.Ready seen.2) := by
  unfold TrustJustified Disk.trust
  rw [List.forall_mem_append]
  refine and_congr_right fun _ => ?_
  cases accepted <;> simp

/-! ## What the functions leave alone -/

/-- The driver does not move cards. -/
theorem kept_card (cmds : List UInt8) (present : Bool) :
    Kept (socket dev).toDevice cmds fun s => s.card.isSome = present := by
  refine Kept.of_bytes ?_ ?_
  · intro on s h
    rw [← h]
    exact Option.isSome_map
  · intro b s h
    rw [← h]
    cases hcard : s.card <;> simp [socket, hcard]

/-- Nothing is identified in an empty slot. -/
theorem card_of_identify {s : Slot σ} {kind : CardKind}
    (h : (identify (socket dev).toDevice s).1 = some kind) : s.card.isSome = true := by
  cases hcard : s.card.isSome with
  | true => rfl
  | false =>
      have hnone := (kept_card dev _ false).identify_high (fun s hs => by
        rw [Option.isSome_eq_false_iff, Option.isNone_iff_eq_none] at hs
        simp [socket, hs]) hcard
      rw [hnone] at h
      cases h

theorem ofCount_ne_notrdy (n : Nat) : DResult.ofCount n ≠ .notrdy := by
  unfold DResult.ofCount
  split <;> decide

theorem readSectors_ne_notrdy {τ : Type} (dev : Device τ) (cardType : UInt8)
    (sector count : UInt32) (s : τ) :
    (readSectors dev cardType sector count s).1.1 ≠ .notrdy := by
  simp only [readSectors]
  generalize (if count > 1 then cmd18 else cmd17) = cmd
  split <;> exact ofCount_ne_notrdy _

theorem control_ne_notrdy {τ : Type} (dev : Device τ) (ctrl : UInt8) (s : τ) :
    (control dev ctrl s).1.1 ≠ .notrdy := by
  have hcount : (readSectorCount dev s).1.1 ≠ .notrdy := by
    simp only [readSectorCount]
    split
    · split <;> simp
    · simp
  simp only [control]
  split
  · cases (select dev s).1 <;> simp
  · split
    · exact hcount
    · split <;> simp

/-- Only a call that does not get past its check returns RES_NOTRDY. -/
theorem call_result_eq_notrdy_iff {τ : Type} (sock : Socket τ) (r : Request) (x : Drive τ) :
    (r.call sock x).1.result = .notrdy ↔ x.stat.noInit = true := by
  have hready : ∀ body : UInt8 → τ → Reply × τ,
      (∀ cardType s, (body cardType s).1.result ≠ .notrdy) →
      ((whenReady sock 0 body x).1.result = .notrdy ↔ x.stat.noInit = true) := by
    intro body hbody
    cases hinit : x.stat.noInit with
    | true => simp [whenReady, diskStatus, hinit]
    | false => simp [whenReady, diskStatus, hinit, hbody]
  cases r with
  | read sector count => exact hready _ fun _ _ => readSectors_ne_notrdy _ _ _ _ _
  | write sector count blocks => exact hready _ fun _ _ => ofCount_ne_notrdy _
  | ioctl ctrl => exact hready _ fun _ _ => control_ne_notrdy _ _ _

/-- A transfer changes neither `STA_NOINIT` nor `CardType`. -/
theorem call_keeps {τ : Type} (sock : Socket τ) (r : Request) (x : Drive τ) :
    (r.call sock x).2.stat.noInit = x.stat.noInit ∧ (r.call sock x).2.cardType = x.cardType := by
  have hready : ∀ body : UInt8 → τ → Reply × τ,
      (whenReady sock 0 body x).2.stat.noInit = x.stat.noInit ∧
        (whenReady sock 0 body x).2.cardType = x.cardType := by
    intro body
    simp only [whenReady, diskStatus, bne_self_eq_false, Bool.or_false]
    split <;> exact ⟨rfl, rfl⟩
  cases r with
  | read sector count => exact hready _
  | write sector count blocks => exact hready _
  | ioctl ctrl => exact hready _

/-! ## What a clear `STA_NOINIT` stands for -/

variable {dev}

/-- While `STA_NOINIT` is clear, `CardType` was assigned by an initialisation.  It is that of the
card in the slot as long as none was taken out, and no card completes the sequence behind the
back of the driver. -/
structure DiskJ (d : Disk σ) : Prop where
  kept : d.drive.stat.noInit = false → d.removed = false → ∃ kind : CardKind,
    d.drive.cardType = kind.assigned ∧ d.slot.card.isSome = true ∧
      d.slot.record.Follows (.done kind)
  gone : d.drive.stat.noInit = false → d.removed = true → d.slot.record.Follows .start

theorem diskJ_start : DiskJ (Disk.start : Disk σ) :=
  ⟨fun h => Bool.noConfusion h, fun h => Bool.noConfusion h⟩

/-- With `STA_NOINIT` clear, the driver is right about the card precisely if the card is
undisturbed. -/
theorem DiskJ.ready_iff {d : Disk σ} (h : DiskJ d) (hinit : d.drive.stat.noInit = false) :
    d.slot.Ready d.drive.cardType ↔ d.Undisturbed := by
  unfold Slot.Ready Disk.Undisturbed
  cases hremoved : d.removed with
  | true =>
      have hstart := (h.gone hinit hremoved).progress_log (.inl rfl)
      rw [hstart]
      refine iff_of_false ?_ (fun hfresh => Bool.noConfusion hfresh.1)
      rintro ⟨-, kind, hdone, -⟩
      cases hdone
  | false =>
      obtain ⟨kind, htype, hcard, hfollows⟩ := h.kept hinit hremoved
      rw [hfollows.progress_log (.inr ⟨kind, rfl⟩), htype]
      constructor
      · rintro ⟨-, found, hsame, hflags⟩
        obtain rfl : kind = found := Progress.done.inj hsame
        refine ⟨rfl, fun hversion => ?_⟩
        exact (kind.assigned_eq_flags_iff.mp hflags) (Progress.done.inj hversion)
      · rintro ⟨-, hversion⟩
        exact ⟨hcard, kind, rfl, kind.assigned_eq_flags_iff.mpr fun hk => hversion (hk ▸ rfl)⟩

/-- Recording a call changes nothing of what the driver knows. -/
theorem DiskJ.trust {d : Disk σ} (h : DiskJ d) (accepted : Bool) (seen : Slot σ × UInt8) :
    DiskJ (d.trust accepted seen) :=
  ⟨h.kept, h.gone⟩

/-! ## The calls -/

/-- The three ways `disk_initialize` takes on drive 0: it returns at once, it identifies the
card, or it fails. -/
theorem diskInitialize_cases {τ : Type} (sock : Socket τ) (x : Drive τ) :
    let start := (sock.receive 10 (sock.select false x.device)).2
    ((diskStatus sock 0 x).1 = .zero ∧
        diskInitialize sock 0 x = (.zero, (diskStatus sock 0 x).2)) ∨
      ((diskStatus sock 0 x).1 ≠ .zero ∧ ∃ kind, (identify sock.toDevice start).1 = some kind ∧
        diskInitialize sock 0 x = (.zero,
          ⟨.zero, kind.assigned, deselect sock.toDevice (identify sock.toDevice start).2⟩)) ∨
      ((diskInitialize sock 0 x).1 ≠ .zero ∧
        (diskInitialize sock 0 x).2.stat.noInit = true) := by
  intro start
  have hdrive : ¬(0 : UInt8) ≠ 0 := not_not_intro rfl
  by_cases hstat : (diskStatus sock 0 x).1 = .zero
  · refine .inl ⟨hstat, ?_⟩
    have hstored : (diskStatus sock 0 x).2.stat = .zero := hstat
    simp only [diskInitialize, hdrive, if_false, hstored, if_true]
  · have hstored : ¬(diskStatus sock 0 x).2.stat = .zero := hstat
    have hdevice : (diskStatus sock 0 x).2.device = x.device := rfl
    refine .inr ?_
    cases hkind : (identify sock.toDevice start).1 with
    | some kind =>
        refine .inl ⟨hstat, kind, rfl, ?_⟩
        have hty := kind.assigned_ne_zero
        simp only [diskInitialize, hdrive, if_false, hstored, hdevice, start, hkind,
          Option.map_some, Option.getD_some, ne_eq, hty, not_false_iff, if_true]
    | none =>
        refine .inr ?_
        simp only [diskInitialize, hdrive, if_false, hstored, hdevice, start, hkind,
          Option.map_none, Option.getD_none]
        simp [diskStatus, DStatus.zero]

theorem DiskJ.status {d : Disk σ} (h : DiskJ d) : DiskJ (diskStep dev d .status) := by
  have hsame : (diskStep dev d .status).drive.stat.noInit = d.drive.stat.noInit := Bool.or_false _
  exact ⟨fun hinit => h.kept (hsame.symm.trans hinit), fun hinit => h.gone (hsame.symm.trans hinit)⟩

theorem DiskJ.initialise {d : Disk σ} (h : DiskJ d) : DiskJ (diskStep dev d .initialise) := by
  refine DiskJ.trust ?_ _ _
  rcases diskInitialize_cases (socket dev) d.drive with
    ⟨hstat, hcall⟩ | ⟨hstat, kind, hkind, hcall⟩ | ⟨hfailed, hinit⟩
  · have hcompletes : ¬d.completes dev := fun hc => hc.1 hstat
    rw [hcall, if_neg hcompletes]
    exact h.status
  · have hcompletes : d.completes dev := ⟨hstat, congrArg Prod.fst hcall⟩
    rw [hcall, if_pos hcompletes]
    refine ⟨fun _ _ => ⟨kind, rfl, ?_, ?_⟩, fun _ hremoved => Bool.noConfusion hremoved⟩
    · have hcard := card_of_identify dev hkind
      have hkept := kept_card dev initialiseCommands true
      exact hkept.deselect (hkept.identify hcard)
    · exact (recorder dev).follows_deselect ((recorder dev).identify_progress hkind)
  · have hclear : ∀ {P : Prop}, (diskInitialize (socket dev) 0 d.drive).2.stat.noInit = false → P :=
      fun hclear => absurd (hinit.symm.trans hclear) nofun
    exact ⟨fun hc => hclear hc, fun hc => hclear hc⟩

theorem DiskJ.transfer {d : Disk σ} (h : DiskJ d) (r : Request) :
    DiskJ (diskStep dev d (.transfer r)) := by
  refine DiskJ.trust ?_ _ _
  obtain ⟨hinit, htype⟩ := call_keeps (socket dev) r d.drive
  have hfollows : ∀ {p : Progress}, p.Settled → d.slot.record.Follows p →
      (r.call (socket dev) d.drive).2.device.record.Follows p :=
    fun hp hd => Kept.call ((recorder dev).kept hp) r hd
  constructor
  · intro hclear hremoved
    obtain ⟨kind, hkind, hcard, hrecord⟩ := h.kept (hinit.symm.trans hclear) hremoved
    exact ⟨kind, htype.trans hkind, (kept_card dev transferCommands true).call r hcard,
      hfollows (.inr ⟨kind, rfl⟩) hrecord⟩
  · intro hclear hremoved
    exact hfollows (.inl rfl) (h.gone (hinit.symm.trans hclear) hremoved)

/-- What the driver knows is kept by every call and slot event. -/
theorem DiskJ.step {d : Disk σ} (h : DiskJ d) (a : DiskAction σ) : DiskJ (diskStep dev d a) := by
  have hfresh : ∀ card : Option σ, (Slot.fresh card).record.Follows .start :=
    fun _ => ⟨rfl, rfl, nofun⟩
  cases a with
  | remove => exact ⟨fun _ hremoved => Bool.noConfusion hremoved, fun _ _ => hfresh none⟩
  | insert card =>
      simp only [diskStep]
      split
      · exact h
      · rename_i hempty
        refine ⟨fun hinit hremoved => ?_, fun _ _ => hfresh (some card)⟩
        obtain ⟨-, -, hcard, -⟩ := h.kept hinit hremoved
        exact absurd hcard hempty
  | status => exact h.status
  | initialise => exact h.initialise
  | transfer r => exact h.transfer r

/-- One call keeps the trust justified precisely if it is safe. -/
theorem trustJustified_step_iff {d : Disk σ} (h : DiskJ d) (htrust : TrustJustified d)
    (a : DiskAction σ) : TrustJustified (diskStep dev d a) ↔ Safe dev d a := by
  cases a with
  | remove => exact iff_of_true htrust trivial
  | insert card =>
      refine iff_of_true ?_ trivial
      simp only [diskStep]
      split <;> exact htrust
  | status => exact iff_of_true htrust trivial
  | initialise =>
      have hafter : DiskJ (diskStep dev d .initialise) := h.initialise
      refine (trustJustified_trust _ _ _).trans ((and_iff_right htrust).trans ?_)
      rw [decide_eq_true_eq]
      refine imp_congr_right fun hzero => ?_
      have hclear : (diskStep dev d .initialise).drive.stat.noInit = false := by
        rcases diskInitialize_cases (socket dev) d.drive with
          ⟨hstat, hcall⟩ | ⟨-, kind, -, hcall⟩ | ⟨hfailed, -⟩
        · show (diskInitialize (socket dev) 0 d.drive).2.stat.noInit = false
          rw [hcall]
          exact congrArg DStatus.noInit hstat
        · show (diskInitialize (socket dev) 0 d.drive).2.stat.noInit = false
          rw [hcall]
          rfl
        · exact absurd hzero hfailed
      exact hafter.ready_iff hclear
  | transfer r =>
      refine (trustJustified_trust _ _ _).trans ((and_iff_right htrust).trans ?_)
      have hpast : (decide ((r.call (socket dev) d.drive).1.result ≠ .notrdy) = true) ↔
          d.drive.stat.noInit = false := by
        rw [decide_eq_true_eq, Ne, call_result_eq_notrdy_iff, Bool.not_eq_true]
      rw [hpast]
      exact imp_congr_right fun hinit => h.ready_iff hinit

/-- For every order of slot events and calls, with any cards: whenever `disk_initialize` has
returned 0, and whenever a transfer has got past its check, the card in the slot has completed
the initialisation sequence since it was put in and `CardType` describes it, precisely if no
such call has met a card that is not the one last initialised, or one of version 1. -/
theorem sd_card_trust_iff (dev : Device σ) (actions : List (DiskAction σ)) :
    (disk dev).Always TrustJustified .start actions ↔
      (disk dev).Guarded (Safe dev) .start actions := by
  refine Machine.always_iff_guarded (J := DiskJ) ?_ ?_ diskJ_start nofun
  · rintro d a d' h ⟨⟩
    exact h.step a
  · rintro d a d' h htrust ⟨⟩
    exact trustJustified_step_iff h htrust a

/-! ## A card is exchanged -/

/-- A card that sends the bytes of a list, one for each byte it is sent, and then keeps the
line high. -/
def scripted : Device (List UInt8) where
  select _ s := s
  exchange _ s := (s.headD 0xFF, s.tail)

/-- The answer to a command packet: the line is high while the card is selected and the packet
is sent. -/
def answered (bytes : List UInt8) : List UInt8 := List.replicate 9 0xFF ++ bytes

/-- A card of version 2 with block addressing. -/
def sampleCard : List UInt8 :=
  List.replicate 10 0xFF ++ answered [0x01] ++ answered [0x01, 0x00, 0x00, 0x01, 0xAA] ++
    answered [0x01] ++ answered [0x00] ++ answered [0x00, 0xC0, 0xFF, 0x80, 0x00]

/-- A card is put in and initialised, taken out, and another one put in. -/
def exchangedCard : List (DiskAction (List UInt8)) :=
  [.insert sampleCard, .initialise, .remove, .insert [], .initialise]

/-- The second card is taken for initialised, although no command was sent to it. -/
theorem exchanged_card_is_trusted :
    ¬(disk scripted).Always TrustJustified .start exchangedCard := by
  intro h
  obtain ⟨d, hd⟩ : ∃ d, (disk scripted).run .start exchangedCard = some d :=
    Option.isSome_iff_exists.mp (by decide +kernel)
  have hlog : ((disk scripted).run .start exchangedCard).bind (fun d =>
      d.trusted.getLast?.map fun seen => seen.1.record.log) = some [] := by
    decide +kernel
  rw [hd, Option.bind_some, Option.map_eq_some_iff] at hlog
  obtain ⟨seen, hseen, hempty⟩ := hlog
  obtain ⟨-, kind, hdone, -⟩ := h.last hd seen (List.mem_of_getLast? hseen)
  rw [hempty] at hdone
  cases hdone

end Uiso.Sd
