/-
  Mqtt/Sending.lean --- how MQTT packets are written to the connection: `sendPacket` of
  src/mqtt/MQTTClient.c over `uiso_mqtt_write` of MQTTuiso.c.

  `uiso_mqtt_write` is one call of `sl_Send`, which may accept a part of what it is given.
  `sendPacket` calls it until the packet is sent, each time from where the last call
  stopped, and each time with the length of the whole packet.

  The send buffer is the memory from `c->buf` on; what lies behind a packet is what the
  packets before it left there.  The keep-alive timer `last_sent` is left out.
-/
import Mathlib.Algebra.BigOperators.Group.Finset.Basic
import Mathlib.Algebra.Order.BigOperators.Group.Finset

set_option autoImplicit false

namespace Uiso.Mqtt

/-! ## The functions -/

/-- `SUCCESS` -/
def success : Int := 0

/-- `FAILURE` -/
def failure : Int := -1

/-- The length that reaches `sl_Send`, whose parameter is a `_i16`. -/
def requested (length : Nat) : Int := (length : Int).bmod (2 ^ 16)

/-- What one round of the loop meets: whether the timer has expired, and the result of
`sl_Send`, which fails or accepts from one byte to all it was given. -/
structure Round (length : Nat) where
  expired : Bool
  result : Int
  legal : result < 0 ∨ 1 ≤ result ∧ result ≤ requested length

/-- The bytes `&c->buf[start]` to `&c->buf[start + count - 1]`. -/
def slice (mem : Nat → UInt8) (start count : Nat) : List UInt8 :=
  (List.range count).map fun i => mem (start + i)

/-- The packet `sendPacket` is called with. -/
def packet (mem : Nat → UInt8) (length : Nat) : List UInt8 := slice mem 0 length

/-- The loop of `sendPacket` from round `k`, with `sent` as it is there: `sent` at the end,
and the bytes that go on the connection. -/
def sendLoop (mem : Nat → UInt8) {length : Nat} (rounds : Nat → Round length) (k sent : Nat) :
    Nat × List UInt8 :=
  if sent < length ∧ (rounds k).expired = false then
    if (rounds k).result < 0 then (sent, [])
    else
      let rc := (rounds k).result.toNat
      let rest := sendLoop mem rounds (k + 1) (sent + rc)
      (rest.1, slice mem sent rc ++ rest.2)
  else (sent, [])
termination_by length - sent
decreasing_by
  have := (rounds k).legal
  omega

/-- `sendPacket`: its result, and the bytes it puts on the connection. -/
def sendPacket (mem : Nat → UInt8) {length : Nat} (rounds : Nat → Round length) :
    Int × List UInt8 :=
  let r := sendLoop mem rounds 0 0
  (if r.1 = length then success else failure, r.2)

/-! ## What is sent -/

theorem length_slice (mem : Nat → UInt8) (start count : Nat) :
    (slice mem start count).length = count := by
  simp [slice]

theorem slice_append (mem : Nat → UInt8) (start m n : Nat) :
    slice mem start m ++ slice mem (start + m) n = slice mem start (m + n) := by
  simp [slice, List.range_add, Nat.add_assoc]

/-- The bytes the first `k` calls accept. -/
def accepted {length : Nat} (rounds : Nat → Round length) (k : Nat) : Nat :=
  ∑ i ∈ Finset.range k, (rounds i).result.toNat

theorem accepted_succ {length : Nat} (rounds : Nat → Round length) (k : Nat) :
    accepted rounds (k + 1) = accepted rounds k + (rounds k).result.toNat :=
  Finset.sum_range_succ _ k

theorem accepted_mono {length : Nat} (rounds : Nat → Round length) :
    Monotone (accepted rounds) := fun _ _ h =>
  Finset.sum_le_sum_of_subset (Finset.range_mono h)

/-- The loop goes through round `k`: the timer has not expired, and the call does not fail. -/
def Passes {length : Nat} (rounds : Nat → Round length) (k : Nat) : Prop :=
  (rounds k).expired = false ∧ 0 ≤ (rounds k).result

theorem sendLoop_of_passes (mem : Nat → UInt8) {length : Nat} {rounds : Nat → Round length}
    {k sent : Nat} (hlt : sent < length) (h : Passes rounds k) :
    sendLoop mem rounds k sent =
      let rest := sendLoop mem rounds (k + 1) (sent + (rounds k).result.toNat)
      (rest.1, slice mem sent (rounds k).result.toNat ++ rest.2) := by
  rw [sendLoop, if_pos ⟨hlt, h.1⟩, if_neg (Int.not_lt.mpr h.2)]

theorem sendLoop_of_not_passes (mem : Nat → UInt8) {length : Nat} {rounds : Nat → Round length}
    {k sent : Nat} (h : ¬(Passes rounds k ∧ sent < length)) :
    sendLoop mem rounds k sent = (sent, []) := by
  rw [sendLoop]
  split
  · rename_i hmade
    split
    · rfl
    · rename_i hresult
      exact absurd ⟨⟨hmade.2, Int.not_lt.mp hresult⟩, hmade.1⟩ h
  · rfl

/-- Where the loop ends when it starts at round `k`: all the rounds up to there pass, with
less than the packet sent before each of them, and the next one is not made or fails. -/
structure EndsAt {length : Nat} (rounds : Nat → Round length) (k n : Nat) : Prop where
  start : k ≤ n
  passed : ∀ i, k ≤ i → i < n → Passes rounds i ∧ accepted rounds i < length
  stopped : ¬(Passes rounds n ∧ accepted rounds n < length)

/-- The loop sends the memory from where it starts up to where it ends. -/
theorem sendLoop_eq (mem : Nat → UInt8) {length : Nat} (rounds : Nat → Round length) (k : Nat) :
    ∃ n, EndsAt rounds k n ∧ sendLoop mem rounds k (accepted rounds k) =
      (accepted rounds n,
        slice mem (accepted rounds k) (accepted rounds n - accepted rounds k)) := by
  induction hleft : length - accepted rounds k using Nat.strongRecOn generalizing k with
  | ind left ih =>
      by_cases hpass : Passes rounds k ∧ accepted rounds k < length
      · have hnext := accepted_succ rounds k
        have hlegal := (rounds k).legal
        have hresult := hpass.1.2
        obtain ⟨n, hends, hloop⟩ := ih (length - accepted rounds (k + 1)) (by omega) (k + 1) rfl
        have hmono := accepted_mono rounds hends.start
        refine ⟨n, ⟨Nat.le_of_succ_le hends.start, ?_, hends.stopped⟩, ?_⟩
        · intro i hki hin
          rcases Nat.eq_or_lt_of_le hki with rfl | hlater
          · exact hpass
          · exact hends.passed i hlater hin
        · have hcount : accepted rounds n - accepted rounds k = (rounds k).result.toNat +
              (accepted rounds n - accepted rounds (k + 1)) := by omega
          rw [sendLoop_of_passes mem hpass.2 hpass.1, ← hnext, hloop, hcount, ← slice_append,
            ← hnext]
      · refine ⟨k, ⟨Nat.le_refl k, fun i hki hik => absurd hik (Nat.not_lt.mpr hki), hpass⟩, ?_⟩
        rw [sendLoop_of_not_passes mem hpass, Nat.sub_self]
        rfl

/-- `sendPacket` sends the memory from the start of the packet, as much as was accepted
before the loop ended, and succeeds if that is the length of the packet. -/
theorem sendPacket_eq (mem : Nat → UInt8) {length : Nat} (rounds : Nat → Round length) :
    ∃ n, EndsAt rounds 0 n ∧ sendPacket mem rounds =
      (if accepted rounds n = length then success else failure,
        packet mem (accepted rounds n)) := by
  obtain ⟨n, hends, hloop⟩ := sendLoop_eq mem rounds 0
  have hzero : accepted rounds 0 = 0 := Finset.sum_range_zero _
  rw [hzero, Nat.sub_zero] at hloop
  exact ⟨n, hends, by rw [sendPacket, hloop]; rfl⟩

/-! ## Whole packets -/

/-- What goes on the connection is a prefix of the packet, and all of it precisely when
`sendPacket` succeeds. -/
def Delivers (mem : Nat → UInt8) {length : Nat} (rounds : Nat → Round length) : Prop :=
  (sendPacket mem rounds).2 <+: packet mem length ∧
    ((sendPacket mem rounds).1 = success ↔ (sendPacket mem rounds).2 = packet mem length)

/-- As long as the timer has not expired and no call has failed, the call that completes
the packet accepts no more than what is left of it. -/
def NeverOvershoots {length : Nat} (rounds : Nat → Round length) : Prop :=
  ∀ k, (∀ i, i ≤ k → Passes rounds i) → accepted rounds k < length →
    accepted rounds (k + 1) ≤ length

/-- Where the loop ends, no more than the packet has been accepted if and only if no call
overshoots it. -/
theorem EndsAt.le_iff {length : Nat} {rounds : Nat → Round length} {n : Nat}
    (h : EndsAt rounds 0 n) : accepted rounds n ≤ length ↔ NeverOvershoots rounds := by
  constructor
  · intro hle k hpasses hlt
    by_cases hkn : k < n
    · exact (accepted_mono rounds hkn).trans hle
    · -- A passing round with a part of the packet left is not behind the end.
      have hlast : accepted rounds n < length :=
        Nat.lt_of_le_of_lt (accepted_mono rounds (Nat.le_of_not_lt hkn)) hlt
      exact absurd ⟨hpasses n (Nat.le_of_not_lt hkn), hlast⟩ h.stopped
  · intro hnever
    cases n with
    | zero => exact Nat.zero_le length
    | succ k =>
        have hpassed := fun i (hi : i ≤ k) => h.passed i (Nat.zero_le i) (Nat.lt_succ_of_le hi)
        exact hnever k (fun i hi => (hpassed i hi).1) (hpassed k (Nat.le_refl k)).2

/-- A slice from the start is a prefix of the packet if and only if it is no longer. -/
theorem packet_prefix_iff (mem : Nat → UInt8) (n length : Nat) :
    packet mem n <+: packet mem length ↔ n ≤ length := by
  constructor
  · intro h
    simpa only [packet, length_slice] using h.length_le
  · intro h
    refine ⟨slice mem (0 + n) (length - n), ?_⟩
    rw [packet, packet, slice_append, Nat.add_sub_cancel' h]

theorem packet_eq_iff (mem : Nat → UInt8) (n length : Nat) :
    packet mem n = packet mem length ↔ n = length := by
  constructor
  · intro h
    simpa only [packet, length_slice] using congrArg List.length h
  · rintro rfl
    rfl

/-- A packet is delivered, whole or up to a failure, if and only if no call of `sl_Send`
accepts bytes from behind it. -/
theorem delivers_iff_neverOvershoots (mem : Nat → UInt8) {length : Nat}
    (rounds : Nat → Round length) : Delivers mem rounds ↔ NeverOvershoots rounds := by
  obtain ⟨n, hends, hsend⟩ := sendPacket_eq mem rounds
  rw [← hends.le_iff, Delivers, hsend, packet_prefix_iff, packet_eq_iff]
  refine ⟨fun h => h.1, fun h => ⟨h, ?_⟩⟩
  constructor
  · intro hrc
    by_contra hne
    simp [hne, success, failure] at hrc
  · intro heq
    exact if_pos heq

/-- A packet of two bytes: the first call accepts one of them, the second all it is asked
to send. -/
def partialRounds (k : Nat) : Round 2 :=
  if k = 0 then ⟨false, 1, by decide⟩ else ⟨false, 2, by decide⟩

/-- Three bytes go on the connection, and `sendPacket` fails. -/
theorem not_delivers_partialRounds :
    ¬∀ (mem : Nat → UInt8) (length : Nat) (rounds : Nat → Round length), Delivers mem rounds := by
  intro h
  have hsend : sendPacket (fun _ => 0) partialRounds = (failure, [0, 0, 0]) := by
    rw [sendPacket, sendLoop_of_passes _ (by decide) ⟨rfl, by decide⟩,
      sendLoop_of_passes _ (by decide) ⟨rfl, by decide⟩,
      sendLoop_of_not_passes _ fun hpass => absurd hpass.2 (by decide)]
    rfl
  have hprefix := (h (fun _ => 0) 2 partialRounds).1
  rw [hsend] at hprefix
  exact absurd hprefix.length_le (by decide)

end Uiso.Mqtt
