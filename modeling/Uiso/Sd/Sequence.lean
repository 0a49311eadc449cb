/-
  Sd/Sequence.lean --- how far a card has come through the initialisation sequence.

  The sequence is read off the log of the bus alone: CMD0 begins it, CMD8 tells version 2 from
  the others, ACMD41 or CMD1 waits until the card has left the idle state, and CMD58 or CMD16
  completes it.  Whatever the driver does, `Progress` is what the card and everything that
  listens to the bus know.

      Progress.advance : one exchange
      progress         : the exchanges of a log
-/
import Uiso.Sd.Log
import Uiso.Sd.Kept

set_option autoImplicit false

namespace Uiso.Sd

open Uiso.Foundation.Spi

/-! ## The sequence -/

/-- How far a card has come. -/
inductive Progress where
  /-- no CMD0 was answered, or the card was given up -/
  | start
  /-- CMD0 was answered -/
  | idle
  /-- CMD8 was answered by a card of version 2 that works at the voltage -/
  | version2
  /-- a card of version 2 has left the idle state -/
  | leftVersion2
  /-- a card of version 1 or an MMC has left the idle state -/
  | left (kind : CardKind)
  /-- the last command of the sequence was answered -/
  | done (kind : CardKind)
  deriving DecidableEq, Repr

/-- One exchange.  CMD0 begins the sequence again, wherever the card is. -/
def Progress.advance (p : Progress) (e : Exchange) : Progress :=
  if e.cmd = cmd0 then if e.response = 1 then .idle else .start
  else
    match p with
    | .start => .start
    | .idle =>
        if e.cmd = cmd8 ∧ e.arg = 0x1AA ∧ e.response = 1 then
          if voltageAccepted e.trailing then .version2 else .start
        else if e.cmd = 41 ∧ e.arg = 0 ∧ e.response = 0 then .left .sdc1
        else if e.cmd = cmd1 ∧ e.arg = 0 ∧ e.response = 0 then .left .mmc3
        else .idle
    | .version2 =>
        if e.cmd = 41 ∧ e.arg = 0x40000000 ∧ e.response = 0 then .leftVersion2 else .version2
    | .leftVersion2 =>
        if e.cmd = cmd58 ∧ e.response = 0 then .done (kindOfOcr e.trailing) else .leftVersion2
    | .left kind => if e.cmd = cmd16 ∧ e.arg = 512 ∧ e.response = 0 then .done kind else .left kind
    | .done kind => .done kind

/-- How far the exchanges of a log have brought a card. -/
def progress (log : List Exchange) : Progress := log.foldl Progress.advance .start

theorem progress_append (log more : List Exchange) :
    progress (log ++ more) = more.foldl Progress.advance (progress log) :=
  List.foldl_append

theorem progress_concat (log : List Exchange) (e : Exchange) :
    progress (log ++ [e]) = (progress log).advance e :=
  progress_append log [e]

/-! ## Exchanges that change nothing -/

/-- CMD55 alone does not bring a card further. -/
theorem Progress.advance_app (p : Progress) {e : Exchange} (h : e.cmd = cmd55) :
    p.advance e = p := by
  have h0 : ¬cmd55 = cmd0 := by decide
  have h1 : ¬cmd55 = cmd1 := by decide
  have h8 : ¬cmd55 = cmd8 := by decide
  have h16 : ¬cmd55 = cmd16 := by decide
  have h41 : ¬cmd55 = 41 := by decide
  have h58 : ¬cmd55 = cmd58 := by decide
  cases p <;> simp only [advance, h, h0, h1, h8, h16, h41, h58, false_and, if_false]

theorem progress_append_apps (log : List Exchange) {before : List Exchange}
    (h : ∀ e ∈ before, e.cmd = cmd55) : progress (log ++ before) = progress log := by
  induction before generalizing log with
  | nil => rw [List.append_nil]
  | cons e before ih =>
      rw [List.forall_mem_cons] at h
      rw [List.append_cons, ih _ h.2, progress_concat, Progress.advance_app _ h.1]

/-- A card that is outside of the sequence. -/
def Progress.Settled (p : Progress) : Prop := p = .start ∨ ∃ kind, p = .done kind

/-- Only CMD0 brings a card back into the sequence. -/
theorem Progress.Settled.advance {p : Progress} (h : p.Settled) {e : Exchange}
    (hcmd : e.cmd ≠ cmd0) : p.advance e = p := by
  rcases h with rfl | ⟨kind, rfl⟩ <;> simp only [Progress.advance, hcmd, if_false]

/-! ## Commands of the sequence -/

section

variable {σ : Type} {dev : Device σ} (k : Recorder dev)

/-- The progress of the card by the record of its bus. -/
def Recorder.progress (s : σ) : Progress := Sd.progress (k.record s).log

/-- A command that is answered with 0 or 1 was sent.  Its exchange has brought the card
further, with the bytes that are received behind the response. -/
theorem Recorder.sendCmd_answered (cmd : UInt8) (hcmd : cmd &&& 0x7F < 64)
    (hstop : cmd &&& 0x7F ≠ cmd12) {arg : UInt32} {s : σ} {n : UInt8}
    (hn : (Sd.sendCmd dev cmd arg s).1 = n) (hle : n ≤ 1) (m : Nat) :
    ∃ e : Exchange, e.cmd = cmd &&& 0x7F ∧ e.arg = arg.toNat ∧ e.response = n ∧
      e.trailing = (dev.receive m (Sd.sendCmd dev cmd arg s).2).1 ∧
      k.progress (dev.receive m (Sd.sendCmd dev cmd arg s).2).2 = (k.progress s).advance e := by
  have hbyte : n = 0 ∨ n = 1 := by
    have hvalue := UInt8.le_iff_toNat_le.mp hle
    have hone : (1 : UInt8).toNat = 1 := rfl
    rcases Nat.le_one_iff_eq_zero_or_eq_one.mp (hone ▸ hvalue) with hzero | hone
    · exact .inl (UInt8.toNat_inj.mp hzero)
    · exact .inr (UInt8.toNat_inj.mp hone)
  have hresponse : isResponse n = true := by
    rcases hbyte with rfl | rfl <;> decide
  obtain ⟨before, hbefore, hsilent | ⟨received, hanswers, hrecord⟩⟩ :=
    k.sendCmd cmd hcmd hstop arg s
  · exact absurd hsilent.1 (UInt8.not_lt.mpr (hn ▸ hle))
  · rw [hn] at hanswers
    have hreceive := k.receive m (s := (Sd.sendCmd dev cmd arg s).2) (by rw [hrecord]; rfl)
      (by rw [hrecord]; rfl)
    obtain ⟨hfirst, htrailing⟩ := hanswers.response_eq hresponse (cmd &&& 0x7F) arg.toNat
      (dev.receive m (Sd.sendCmd dev cmd arg s).2).1
    refine ⟨_, rfl, rfl, hfirst, htrailing, ?_⟩
    rw [Recorder.progress, hreceive, hrecord]
    exact (progress_concat _ _).trans
      (congrArg (Progress.advance · _) (progress_append_apps _ hbefore))

/-- A command that is not answered with `m`: its exchange, if there is one, has another
response. -/
theorem Recorder.sendCmd_unanswered (cmd : UInt8) (hcmd : cmd &&& 0x7F < 64)
    (hstop : cmd &&& 0x7F ≠ cmd12) {arg : UInt32} {s : σ} {m : UInt8}
    (hn : (Sd.sendCmd dev cmd arg s).1 ≠ m) (hm : isResponse m = true) :
    k.progress (Sd.sendCmd dev cmd arg s).2 = k.progress s ∨
      ∃ e : Exchange, e.cmd = cmd &&& 0x7F ∧ e.arg = arg.toNat ∧ e.response ≠ m ∧
        k.progress (Sd.sendCmd dev cmd arg s).2 = (k.progress s).advance e := by
  obtain ⟨before, hbefore, hsilent | ⟨received, hanswers, hrecord⟩⟩ :=
    k.sendCmd cmd hcmd hstop arg s
  · refine .inl ?_
    rw [Recorder.progress, hsilent.2, progress_append_apps _ hbefore, Recorder.progress]
  · refine .inr ⟨_, rfl, rfl, hanswers.response_ne hn hm _ arg.toNat, ?_⟩
    rw [Recorder.progress, hrecord]
    exact (progress_concat _ _).trans
      (congrArg (Progress.advance · _) (progress_append_apps _ hbefore))

/-- The loops that wait for the card to leave the idle state: `S` is where the card is while it
has not, and `q` where the response zero brings it. -/
theorem Recorder.leaveIdle_progress (cmd : UInt8) (arg : UInt32) (hcmd : cmd &&& 0x7F < 64)
    (hstop : cmd &&& 0x7F ≠ cmd12) {S : Progress → Prop} {q : Progress}
    (hwait : ∀ p e, S p → e.cmd = cmd &&& 0x7F → e.response ≠ 0 → S (p.advance e))
    (hleft : ∀ p e, S p → e.cmd = cmd &&& 0x7F → e.arg = arg.toNat → e.response = 0 →
      p.advance e = q)
    {tmr : Nat} {s : σ} (h : S (k.progress s)) (hdone : (leaveIdle dev cmd arg tmr s).1 = true) :
    k.progress (leaveIdle dev cmd arg tmr s).2 = q := by
  induction tmr generalizing s with
  | zero => exact Bool.noConfusion hdone
  | succ tmr ih =>
      by_cases hn : (Sd.sendCmd dev cmd arg s).1 = 0
      · obtain ⟨e, hindex, harg, hzero, -, hprogress⟩ :=
          k.sendCmd_answered cmd hcmd hstop hn (by decide) 0
        simp only [leaveIdle, hn, if_true]
        exact hprogress.trans (hleft _ e h hindex harg hzero)
      · have hnext : S (k.progress (Sd.sendCmd dev cmd arg s).2) := by
          rcases k.sendCmd_unanswered cmd hcmd hstop hn (by decide) with
            hsame | ⟨e, hindex, -, hne, hprogress⟩
          · rwa [hsame]
          · rw [hprogress]
            exact hwait _ e h hindex hne
        simp only [leaveIdle, hn, if_false] at hdone ⊢
        exact ih hnext hdone

/-! ## The branches of the sequence -/

/-- A card of version 2. -/
theorem Recorder.initialiseSdc2_progress {s : σ} (h : k.progress s = .version2) {kind : CardKind}
    (hkind : (initialiseSdc2 dev s).1 = some kind) :
    k.progress (initialiseSdc2 dev s).2 = .done kind := by
  have hindex : acmd41 &&& 0x7F = 41 := by decide
  have hleft : ∀ tmr, (leaveIdle dev acmd41 0x40000000 tmr s).1 = true →
      k.progress (leaveIdle dev acmd41 0x40000000 tmr s).2 = .leftVersion2 := by
    intro tmr
    refine k.leaveIdle_progress acmd41 0x40000000 (by decide) (by decide) (S := (· = .version2))
      ?_ ?_ h
    · rintro p e rfl hcmd hne
      simp [Progress.advance, hcmd, hindex, hne, cmd0]
    · rintro p e rfl hcmd harg hzero
      simp [Progress.advance, hcmd, hindex, harg, hzero, cmd0]
  simp only [initialiseSdc2] at hkind ⊢
  split at hkind
  · rename_i hdone
    split at hkind
    · rename_i hocr
      obtain ⟨e, hcmd, -, hzero, htrailing, hprogress⟩ :=
        k.sendCmd_answered cmd58 (by decide) (by decide) hocr (by decide) 4
      have hread : e.cmd = 58 := hcmd
      rw [if_pos hdone, if_pos hocr, hprogress, hleft 1000 hdone, ← Option.some.inj hkind,
        ← htrailing]
      simp [Progress.advance, hread, hzero, cmd0, cmd58]
    · cases hkind
  · cases hkind

/-- A card of version 1, or an MMC. -/
theorem Recorder.initialiseLegacy_progress {cmd : UInt8} {kind found : CardKind}
    (hcmd : cmd &&& 0x7F < 64) (hstop : cmd &&& 0x7F ≠ cmd12) {S : Progress → Prop}
    (hwait : ∀ p e, S p → e.cmd = cmd &&& 0x7F → e.response ≠ 0 → S (p.advance e))
    (hleft : ∀ p e, S p → e.cmd = cmd &&& 0x7F → e.arg = 0 → e.response = 0 →
      p.advance e = .left kind)
    {s : σ} (h : S (k.progress s)) (hfound : (initialiseLegacy dev kind cmd s).1 = some found) :
    k.progress (initialiseLegacy dev kind cmd s).2 = .done found := by
  simp only [initialiseLegacy] at hfound ⊢
  split at hfound
  · rename_i hdone
    split at hfound
    · rename_i hlength
      obtain ⟨e, hset, harg, hzero, -, hprogress⟩ :=
        k.sendCmd_answered cmd16 (by decide) (by decide) hlength (by decide) 0
      have hindex : e.cmd = 16 := hset
      have hvalue : e.arg = 512 := harg
      have hloop := k.leaveIdle_progress cmd 0 hcmd hstop hwait hleft h hdone
      rw [if_pos hdone, ← Option.some.inj hfound]
      refine hprogress.trans ?_
      rw [hloop]
      simp [Progress.advance, hindex, hvalue, hzero, cmd0, cmd16]
    · cases hfound
  · cases hfound

/-- CMD0. -/
theorem Recorder.goIdle_progress {s : σ} (hn : (Sd.sendCmd dev cmd0 0 s).1 = 1) :
    k.progress (Sd.sendCmd dev cmd0 0 s).2 = .idle := by
  obtain ⟨e, hcmd, -, hone, -, hprogress⟩ :=
    k.sendCmd_answered cmd0 (by decide) (by decide) hn (by decide) 0
  have hindex : e.cmd = 0 := hcmd
  refine hprogress.trans ?_
  simp [Progress.advance, hindex, hone, cmd0]

/-- CMD8, and a card of version 2 that works at the voltage. -/
theorem Recorder.ifCond_version2 {s : σ} (h : k.progress s = .idle)
    (hn : (Sd.sendCmd dev cmd8 0x1AA s).1 = 1)
    (hvoltage : voltageAccepted (dev.receive 4 (Sd.sendCmd dev cmd8 0x1AA s).2).1) :
    k.progress (dev.receive 4 (Sd.sendCmd dev cmd8 0x1AA s).2).2 = .version2 := by
  obtain ⟨e, hcmd, harg, hone, htrailing, hprogress⟩ :=
    k.sendCmd_answered cmd8 (by decide) (by decide) hn (by decide) 4
  have hindex : e.cmd = 8 := hcmd
  have hvalue : e.arg = 0x1AA := harg
  rw [← htrailing] at hvoltage
  rw [hprogress, h]
  simp [Progress.advance, hindex, hvalue, hone, hvoltage, cmd0, cmd8]

/-- CMD8, and another card. -/
theorem Recorder.ifCond_idle {s : σ} (h : k.progress s = .idle)
    (hn : (Sd.sendCmd dev cmd8 0x1AA s).1 ≠ 1) :
    k.progress (Sd.sendCmd dev cmd8 0x1AA s).2 = .idle := by
  rcases k.sendCmd_unanswered cmd8 (by decide) (by decide) hn (by decide) with
    hsame | ⟨e, hcmd, -, hne, hprogress⟩
  · exact hsame.trans h
  · have hindex : e.cmd = 8 := hcmd
    rw [hprogress, h]
    simp [Progress.advance, hindex, hne, cmd0, cmd1, cmd8]

/-- ACMD41 before the loop of a card of version 1, which may leave the idle state by it. -/
theorem Recorder.opCond_version1 {s : σ} (h : k.progress s = .idle)
    (hn : (Sd.sendCmd dev acmd41 0 s).1 ≤ 1) :
    k.progress (Sd.sendCmd dev acmd41 0 s).2 = .idle ∨
      k.progress (Sd.sendCmd dev acmd41 0 s).2 = .left .sdc1 := by
  obtain ⟨e, hcmd, harg, -, -, hprogress⟩ :=
    k.sendCmd_answered acmd41 (by decide) (by decide) rfl hn 0
  have hindex : e.cmd = 41 := hcmd
  have hvalue : e.arg = 0 := harg
  rw [show k.progress (Sd.sendCmd dev acmd41 0 s).2 = _ from hprogress, h]
  by_cases hzero : e.response = 0
  · right
    simp [Progress.advance, hindex, hvalue, hzero, cmd0, cmd8]
  · left
    simp [Progress.advance, hindex, hzero, cmd0, cmd1, cmd8]

/-- ACMD41 before the loop of an MMC. -/
theorem Recorder.opCond_mmc {s : σ} (h : k.progress s = .idle)
    (hn : ¬(Sd.sendCmd dev acmd41 0 s).1 ≤ 1) :
    k.progress (Sd.sendCmd dev acmd41 0 s).2 = .idle := by
  have hne : (Sd.sendCmd dev acmd41 0 s).1 ≠ 0 := fun hzero => hn (hzero ▸ by decide)
  rcases k.sendCmd_unanswered acmd41 (by decide) (by decide) hne (by decide) with
    hsame | ⟨e, hcmd, -, hresponse, hprogress⟩
  · exact hsame.trans h
  · have hindex : e.cmd = 41 := hcmd
    rw [hprogress, h]
    simp [Progress.advance, hindex, hresponse, cmd0, cmd1, cmd8]

/-- The branch of a card of version 1. -/
theorem Recorder.initialiseSdc1_progress {s : σ}
    (h : k.progress s = .idle ∨ k.progress s = .left .sdc1) {found : CardKind}
    (hfound : (initialiseLegacy dev .sdc1 acmd41 s).1 = some found) :
    k.progress (initialiseLegacy dev .sdc1 acmd41 s).2 = .done found := by
  refine k.initialiseLegacy_progress (S := fun p => p = .idle ∨ p = .left .sdc1) (by decide)
    (by decide) ?_ ?_ h hfound
  · rintro p e (rfl | rfl) (hcmd : e.cmd = 41) hne
    · left
      simp [Progress.advance, hcmd, hne, cmd0, cmd1, cmd8]
    · right
      simp [Progress.advance, hcmd, cmd0, cmd16]
  · rintro p e (rfl | rfl) (hcmd : e.cmd = 41) harg hzero
    · simp [Progress.advance, hcmd, harg, hzero, cmd0, cmd8]
    · simp [Progress.advance, hcmd, cmd0, cmd16]

/-- The branch of an MMC. -/
theorem Recorder.initialiseMmc_progress {s : σ} (h : k.progress s = .idle) {found : CardKind}
    (hfound : (initialiseLegacy dev .mmc3 cmd1 s).1 = some found) :
    k.progress (initialiseLegacy dev .mmc3 cmd1 s).2 = .done found := by
  refine k.initialiseLegacy_progress (S := (· = .idle)) (by decide) (by decide) ?_ ?_ h hfound
  · rintro p e rfl (hcmd : e.cmd = 1) hne
    simp [Progress.advance, hcmd, hne, cmd0, cmd8]
  · rintro p e rfl (hcmd : e.cmd = 1) harg hzero
    simp [Progress.advance, hcmd, harg, hzero, cmd0, cmd1, cmd8]

/-- The command sequence of `disk_initialize` identifies a card only by completing the
sequence on the bus, as the kind it then returns. -/
theorem Recorder.identify_progress {s : σ} {kind : CardKind}
    (hkind : (identify dev s).1 = some kind) : k.progress (identify dev s).2 = .done kind := by
  simp only [identify] at hkind ⊢
  split at hkind
  · rename_i hidle
    have hprogress := k.goIdle_progress hidle
    rw [if_pos hidle]
    split at hkind
    · rename_i hcond
      rw [if_pos hcond]
      split at hkind
      · rename_i hvoltage
        rw [if_pos hvoltage]
        exact k.initialiseSdc2_progress (k.ifCond_version2 hprogress hcond hvoltage) hkind
      · cases hkind
    · rename_i hcond
      have hother := k.ifCond_idle hprogress hcond
      rw [if_neg hcond]
      split at hkind
      · rename_i hop
        rw [if_pos hop]
        exact k.initialiseSdc1_progress (k.opCond_version1 hother hop) hkind
      · rename_i hop
        rw [if_neg hop]
        exact k.initialiseMmc_progress (k.opCond_mmc hother hop) hkind
  · cases hkind

/-! ## Outside of the sequence -/

/-- The record of a bus over which no CMD0 goes, with nothing sent by half. -/
structure Record.Follows (p : Progress) (r : Record) : Prop where
  framing : r.framing = .none
  closed : Sd.progress r.closed = p
  current : ∀ e ∈ r.current, e.cmd ≠ cmd0

namespace Record

theorem follows_idle {p : Progress} {on : Bool} {log : List Exchange} (h : Sd.progress log = p) :
    (Record.idle on log).Follows p :=
  ⟨rfl, h, nofun⟩

variable {p : Progress} {r : Record}

theorem Follows.progress_log (h : r.Follows p) (hp : p.Settled) : Sd.progress r.log = p := by
  cases hcurrent : r.current with
  | none => rw [Record.log, hcurrent, Option.toList_none, List.append_nil, h.closed]
  | some e =>
      rw [Record.log, hcurrent, Option.toList_some, progress_concat, h.closed,
        hp.advance (h.current e hcurrent)]

theorem Follows.select (h : r.Follows p) (hp : p.Settled) (on : Bool) :
    (r.select on).Follows p := by
  cases on with
  | true => exact ⟨h.framing, h.closed, h.current⟩
  | false => exact ⟨rfl, h.progress_log hp, nofun⟩

theorem Follows.hear (h : r.Follows p) (b : UInt8) : (r.hear b).Follows p := by
  refine ⟨h.framing, h.closed, ?_⟩
  intro e he
  obtain ⟨e', he', rfl⟩ := Option.map_eq_some_iff.mp he
  exact h.current e' he'

/-- Bytes that start nothing. -/
theorem Follows.exchange (h : r.Follows p) {sent : UInt8} (hpacket : ¬sent &&& 0xC0 = 0x40)
    (htoken : ¬(sent = 0xFE ∨ sent = 0xFC)) (b : UInt8) : (r.exchange sent b).Follows p := by
  unfold Record.exchange
  split
  · simp only [Record.byte, h.framing, hpacket, htoken, if_false]
    exact h.hear b
  · exact h

/-- The record in a block with `n` bytes to come. -/
def inBlock (n : Nat) (log : List Exchange) : Record := ⟨true, .block n, log, none⟩

theorem exchange_inBlock {n : Nat} (hn : n ≠ 0) (log : List Exchange) (sent b : UInt8) :
    (inBlock (n + 1) log).exchange sent b = inBlock n log := by
  have hleft : ¬n + 1 ≤ 1 := by omega
  simp only [Record.exchange, Record.byte, inBlock, if_true, hleft, if_false, Nat.add_sub_cancel]

end Record

/-- Once the device is deselected nothing is being answered. -/
theorem Recorder.follows_deselect {p : Progress} {s : σ} (h : k.progress s = p) :
    (k.record (Sd.deselect dev s)).Follows p := by
  rw [k.deselect]
  exact Record.follows_idle h

variable {k}

/-- The bytes of a block, but not the last of its checksum. -/
theorem Recorder.transmit_inBlock {n : Nat} (hn : n ≠ 0) {log : List Exchange}
    (bytes : List UInt8) {s : σ} (h : k.record s = .inBlock (bytes.length + n) log) :
    k.record (dev.transmit bytes s) = .inBlock n log := by
  induction bytes generalizing s with
  | nil => exact h.trans (congrArg (Record.inBlock · log) (Nat.zero_add n))
  | cons b bytes ih =>
      refine ih ?_
      rw [k.exchange, h, List.length_cons, Nat.add_right_comm, Record.exchange_inBlock (by omega)]

variable (k)

/-- A data block, with its token and checksum, is no part of the sequence. -/
theorem Recorder.follows_block {p : Progress} (hp : p.Settled) {token : UInt8} {data : List UInt8}
    {s : σ} (htoken : token = 0xFE ∨ token = 0xFC) (hlength : data.length = 512)
    (h : (k.record s).Follows p) :
    (k.record (dev.receive 2 (dev.transmit data (dev.transmit [token] s))).2).Follows p := by
  cases hselected : (k.record s).selected with
  | false =>
      have hfirst := k.transmit_deselected [token] hselected
      have hdata := k.transmit_deselected data (hfirst ▸ hselected)
      rw [k.receive_deselected 2 (hdata ▸ hfirst ▸ hselected), hdata, hfirst]
      exact h
  | true =>
      have hfirst : k.record (dev.transmit [token] s) =
          .inBlock (data.length + 2) (k.record s).log := by
        have hpacket : ¬token &&& 0xC0 = 0x40 := by
          rcases htoken with rfl | rfl <;> decide
        simp only [Device.transmit, k.exchange, Record.exchange, hselected, if_true, Record.byte,
          h.framing, hpacket, if_false, htoken, hlength, Record.close, Record.inBlock]
      have hdata := Recorder.transmit_inBlock (by decide) data hfirst
      have hcrc := Recorder.transmit_inBlock (n := 1) (by decide) [0xFF] hdata
      have hlast : k.record (dev.receive 2 (dev.transmit data (dev.transmit [token] s))).2 =
          .idle true (k.record s).log := by
        show k.record (dev.exchange 0xFF (dev.transmit [0xFF] _)).2 = _
        rw [k.exchange, hcrc]
        rfl
      rw [hlast]
      exact Record.follows_idle (h.progress_log hp)

/-- The functions of the transfers do not bring a card back into the sequence. -/
theorem Recorder.kept {p : Progress} (hp : p.Settled) :
    Kept dev transferCommands fun s => (k.record s).Follows p := by
  have hquiet : ∀ sent : UInt8, ¬sent &&& 0xC0 = 0x40 → ¬(sent = 0xFE ∨ sent = 0xFC) →
      ∀ s, (k.record s).Follows p → (k.record (dev.exchange sent s).2).Follows p := by
    intro sent hpacket htoken s h
    rw [k.exchange]
    exact h.exchange hpacket htoken _
  refine ⟨?_, hquiet 0xFF (by decide) (by decide), ?_, hquiet 0xFD (by decide) (by decide), ?_⟩
  · intro on s h
    rw [k.select]
    exact h.select hp on
  · intro cmd hcmd arg s h
    have hindex : cmd < 64 ∧ cmd ≠ cmd0 := by
      have hall : transferCommands.all (fun c => decide (c < 64 ∧ c ≠ cmd0)) = true := by decide
      exact of_decide_eq_true (List.all_eq_true.mp hall cmd hcmd)
    cases hselected : (k.record s).selected with
    | false =>
        rw [k.transmit_deselected _ hselected]
        exact h
    | true =>
        rw [k.packet hselected h.framing hindex.1]
        refine ⟨rfl, h.progress_log hp, ?_⟩
        rintro e ⟨⟩
        exact hindex.2
  · intro token data s htoken hlength h
    exact k.follows_block hp htoken hlength h

end

end Uiso.Sd
