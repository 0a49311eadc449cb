/-
  Foundation/Spi.lean --- the master of a serial bus on which one byte goes each way at a
  time.

      Device   : what is at the other end, as a function of the byte it is sent
      receive  : bytes are read, and 0xFF is sent for each of them
      transmit : bytes are sent, and what comes back is dropped
      poll     : bytes are read until one satisfies a condition, with a limit
      Clock    : the number of bytes that were exchanged

  A function of the master is described by what the device emits while it is read from.
-/
import Mathlib.Data.List.Basic

set_option autoImplicit false

namespace Uiso.Foundation.Spi

variable {σ : Type}

/-- What holds for each of the values below a bound holds for the bytes below it. -/
theorem byte_of_values {bound : Nat} {P : UInt8 → Prop} (h : ∀ n : Fin bound, P (UInt8.ofNat n))
    {b : UInt8} (hb : b.toNat < bound) : P b := by
  have hvalue : P (UInt8.ofNat b.toNat) := h ⟨b.toNat, hb⟩
  rwa [UInt8.ofNat_toNat] at hvalue

/-- A device on the bus. -/
structure Device (σ : Type) where
  /-- the line that selects the device -/
  select : Bool → σ → σ
  /-- one byte each way -/
  exchange : UInt8 → σ → UInt8 × σ

namespace Device

/-- Bytes are read. -/
def receive (d : Device σ) : Nat → σ → List UInt8 × σ
  | 0, s => ([], s)
  | n + 1, s =>
      let r := d.exchange 0xFF s
      let rest := d.receive n r.2
      (r.1 :: rest.1, rest.2)

/-- Bytes are sent. -/
def transmit (d : Device σ) : List UInt8 → σ → σ
  | [], s => s
  | b :: bytes, s => d.transmit bytes (d.exchange b s).2

/-- Bytes are read until one satisfies `stop`, at most `n`: how many reads were left before
the last one, the byte that was read last, and the device. -/
def poll (d : Device σ) (stop : UInt8 → Bool) : Nat → UInt8 → σ → (Nat × UInt8) × σ
  | 0, last, s => ((0, last), s)
  | n + 1, _, s =>
      let r := d.exchange 0xFF s
      if stop r.1 then ((n + 1, r.1), r.2) else d.poll stop n r.1 r.2

/-- The device sends some bytes when they are read. -/
def Emits (d : Device σ) (s : σ) (bytes : List UInt8) (s' : σ) : Prop :=
  d.receive bytes.length s = (bytes, s')

variable {d : Device σ} {s s' s'' : σ} {bytes bytes' : List UInt8}

theorem emits_nil : d.Emits s [] s := rfl

theorem emits_cons {b : UInt8} :
    d.Emits s (b :: bytes) s'' ↔ ∃ s', d.exchange 0xFF s = (b, s') ∧ d.Emits s' bytes s'' := by
  constructor
  · intro h
    simp only [Emits, List.length_cons, receive, Prod.mk.injEq, List.cons.injEq] at h
    exact ⟨(d.exchange 0xFF s).2, Prod.ext h.1.1 rfl, Prod.ext h.1.2 h.2⟩
  · rintro ⟨s', hfirst, hrest⟩
    simp only [Emits, List.length_cons, receive, hfirst]
    rw [show d.receive bytes.length s' = (bytes, s'') from hrest]

theorem Emits.append (h : d.Emits s bytes s') (h' : d.Emits s' bytes' s'') :
    d.Emits s (bytes ++ bytes') s'' := by
  induction bytes generalizing s with
  | nil =>
      obtain rfl : s = s' := congrArg Prod.snd h
      exact h'
  | cons b bytes ih =>
      obtain ⟨t, hfirst, hrest⟩ := emits_cons.mp h
      exact emits_cons.mpr ⟨t, hfirst, ih hrest⟩

theorem Emits.exchange {b : UInt8} (h : d.Emits s [b] s') : d.exchange 0xFF s = (b, s') := by
  obtain ⟨t, hfirst, hrest⟩ := emits_cons.mp h
  obtain rfl : t = s' := congrArg Prod.snd hrest
  exact hfirst

theorem Emits.receive {n : Nat} (h : d.Emits s bytes s') (hn : bytes.length = n) :
    d.receive n s = (bytes, s') :=
  hn ▸ h

/-- Polling ends with the first byte that satisfies the condition, if it comes in time. -/
theorem Emits.poll {stop : UInt8 → Bool} {pre : List UInt8} {b : UInt8} {n : Nat} (last : UInt8)
    (h : d.Emits s (pre ++ [b]) s') (hpre : ∀ x ∈ pre, stop x = false) (hb : stop b = true)
    (hn : pre.length < n) : d.poll stop n last s = ((n - pre.length, b), s') := by
  induction pre generalizing n s last with
  | nil =>
      obtain ⟨n, rfl⟩ := Nat.exists_eq_add_one_of_ne_zero (Nat.ne_of_gt hn)
      simp only [Device.poll, Emits.exchange h, hb, if_true, List.length_nil, Nat.sub_zero]
  | cons x pre ih =>
      obtain ⟨n, rfl⟩ := Nat.exists_eq_add_one_of_ne_zero (Nat.ne_of_gt (Nat.zero_lt_of_lt hn))
      obtain ⟨t, hfirst, hrest⟩ := emits_cons.mp h
      rw [List.forall_mem_cons] at hpre
      rw [List.length_cons] at hn ⊢
      simp only [Device.poll, hfirst, hpre.1, Bool.false_eq_true, if_false]
      rw [ih x hrest hpre.2 (by omega), Nat.add_sub_add_right]

/-- A count of the bytes that were exchanged with a device. -/
structure Clock (d : Device σ) where
  count : σ → Nat
  select : ∀ on s, count (d.select on s) = count s
  exchange : ∀ b s, count (d.exchange b s).2 = count s + 1

namespace Clock

variable (k : d.Clock)

theorem receive (n : Nat) (s : σ) : k.count (d.receive n s).2 = k.count s + n := by
  induction n generalizing s with
  | zero => rfl
  | succ n ih =>
      show k.count (d.receive n (d.exchange 0xFF s).2).2 = _
      rw [ih, k.exchange, Nat.add_assoc, Nat.add_comm 1]

theorem transmit (bytes : List UInt8) (s : σ) :
    k.count (d.transmit bytes s) = k.count s + bytes.length := by
  induction bytes generalizing s with
  | nil => rfl
  | cons b bytes ih =>
      show k.count (d.transmit bytes (d.exchange b s).2) = _
      rw [ih, k.exchange, Nat.add_assoc, Nat.add_comm 1, List.length_cons]

theorem poll (stop : UInt8 → Bool) (n : Nat) (last : UInt8) (s : σ) :
    k.count (d.poll stop n last s).2 ≤ k.count s + n := by
  induction n generalizing last s with
  | zero => exact Nat.le_refl _
  | succ n ih =>
      have hfirst := k.exchange 0xFF s
      simp only [Device.poll]
      split
      · show k.count (d.exchange 0xFF s).2 ≤ _
        omega
      · have hrest := ih (d.exchange 0xFF s).1 (d.exchange 0xFF s).2
        omega

end Clock

end Device

end Uiso.Foundation.Spi
