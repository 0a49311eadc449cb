/-
  Sntp/Replay.lean --- the originate time stamp as protection against replay.

  A reply is tied to a request by the request's transmit time stamp, which the server
  echoes.  The time stamp is the local NTP time, so the protection is as good as
  `get_local_ntp_time` is injective.  `sl_sleeptimer_convert_unix_time_to_ntp` fails for
  every time of the NTP era that begins in 2036, and the failure is mapped to zero: from
  then on all requests carry the time stamp zero, and every reply to one of them is
  accepted for all the others.  The conversion of the reply's time does handle the era.
-/
import Uiso.Sntp.Acceptance

set_option autoImplicit false

namespace Uiso.Sntp

open Uiso.Foundation
open Uiso.Gecko
open Uiso.Network (rev)

/-! ## The local NTP time -/

theorem getLocalNtpTime_eq {rtc : UInt32} (h : rtc ≤ timeUnixTimestampMax) :
    getLocalNtpTime rtc = if rtc < ntpEraChange then rtc + timeNtpEpochOffsetSec else 0 := by
  unfold getLocalNtpTime
  rw [convertUnixTimeToNtp_eq h]
  split <;> rfl

/-- Two different times have the same time stamp precisely if both lie in the new era. -/
theorem getLocalNtpTime_eq_iff {t₁ t₂ : UInt32} (h₁ : t₁ ≤ timeUnixTimestampMax)
    (h₂ : t₂ ≤ timeUnixTimestampMax) (hne : t₁ ≠ t₂) :
    getLocalNtpTime t₁ = getLocalNtpTime t₂ ↔ ntpEraChange ≤ t₁ ∧ ntpEraChange ≤ t₂ := by
  rw [getLocalNtpTime_eq h₁, getLocalNtpTime_eq h₂]
  have hne' : t₁.toNat ≠ t₂.toNat := fun h => hne (UInt32.toNat_inj.mp h)
  simp only [UInt32.le_iff_toNat_le, UInt32.lt_iff_toNat_lt, timeUnixTimestampMax, ntpEraChange,
    timeNtpEpochOffsetSec_eq] at *
  split <;> split <;>
    simp only [← UInt32.toNat_inj, UInt32.toNat_add, UInt32.reduceToNat, eq_self, true_iff] at * <;>
    omega

/-- The conversion of the reply's time undoes the one of the request's up to the first
second of the new era. -/
theorem convertNtpTimeToUnix_getLocalNtpTime {t : UInt32} (h : t ≤ timeUnixTimestampMax) :
    convertNtpTimeToUnix (getLocalNtpTime t) = some t ↔ t ≤ ntpEraChange := by
  rw [convertNtpTimeToUnix_eq, getLocalNtpTime_eq h]
  by_cases hera : t < ntpEraChange
  · have hle : t ≤ ntpEraChange := UInt32.le_of_lt hera
    have hback : t + timeNtpEpochOffsetSec - timeNtpEpochOffsetSec = t := by
      rw [UInt32.add_sub_cancel]
    simp [hera, hback, h, hle]
  · have hzero : (0 : UInt32) - timeNtpEpochOffsetSec = ntpEraChange := by decide
    have hrange : ntpEraChange ≤ timeUnixTimestampMax := by decide
    rw [if_neg hera, hzero, if_pos hrange, Option.some.injEq]
    constructor
    · rintro rfl
      exact UInt32.le_refl _
    · intro hle
      exact UInt32.le_antisymm (UInt32.not_lt.mp hera) hle

/-! ## Replay -/

/-- Some request sent at `rtc`, to some server and over some network, succeeds with the
reply `d`. -/
def AcceptedAt (rtc : UInt32) (d : Datagram) : Prop :=
  ∃ (server : Server) (interval : UInt32) (a : Answers) (w : World), w.rtc = rtc ∧
    a.recvFrom = some d ∧
    (uisoSntpRequest (some server) (some interval) a w).rcode = .success

/-- The originate time stamp found in the packet does not depend on when the request was
sent, for replies of any length: the request leaves these bytes zero. -/
theorem replyPacket_originate (rtc rtc' : UInt32) (d : Datagram) :
    (replyPacket rtc d).originateTimestampSeconds =
      (replyPacket rtc' d).originateTimestampSeconds := by
  have hbyte : ∀ k, 24 ≤ k → k < 28 → (replyPacket rtc d).byte k = (replyPacket rtc' d).byte k := by
    intro k hlow hhigh
    have hk : ¬(40 ≤ k ∧ k < 40 + 4) := by omega
    have hk' : ¬(44 ≤ k ∧ k < 44 + 4) := by omega
    simp only [replyPacket, requestPacket]
    rw [Buffer.byte_write _ _ (by omega), Buffer.byte_write _ _ (by omega),
      Buffer.byte_store_of_not_mem hk', Buffer.byte_store_of_not_mem hk',
      Buffer.byte_store_of_not_mem hk, Buffer.byte_store_of_not_mem hk]
  simp only [Packet.originateTimestampSeconds, Buffer.load]
  rw [hbyte 24 (by omega) (by omega), hbyte 25 (by omega) (by omega),
    hbyte 26 (by omega) (by omega), hbyte 27 (by omega) (by omega)]

theorem AcceptedAt.originate {rtc : UInt32} {d : Datagram} (h : AcceptedAt rtc d) :
    (replyPacket 0 d).originateTimestampSeconds = getLocalNtpTime rtc := by
  obtain ⟨server, interval, a, w, rfl, hrecv, hsuccess⟩ := h
  obtain ⟨⟨e, time, he, hok⟩, _⟩ := rcode_eq_success.mp hsuccess
  have hed : e = d := Option.some.inj (he.delivers.recvFrom.symm.trans hrecv)
  subst hed
  rw [replyPacket_originate 0 w.rtc]
  exact (replyTimeStamp_eq_ok.mp hok).1

/-- A reply to a request that carried the time stamp zero. -/
def eraReply : Datagram := serverReply 0 0x24 1 0 3908988810

theorem eraReply_acceptedAt {rtc : UInt32} (hzero : getLocalNtpTime rtc = 0) :
    AcceptedAt rtc eraReply := by
  refine ⟨.initial none, 0, answersWith 0 eraReply, .initial rtc, rfl, rfl, ?_⟩
  have hpacket : replyPacket rtc eraReply = eraReply.packet :=
    replyPacket_of_complete (by decide +kernel) rtc
  refine rcode_eq_success.mpr ⟨⟨eraReply, 1700000010, ?_, ?_⟩, rfl, by decide, by decide⟩
  · refine ⟨answersWith_delivers _ _, by decide, ?_, ?_, ?_⟩
    all_goals
      simp only [World.initial, hpacket]
      decide +kernel
  · simp only [World.initial, hpacket, hzero]
    rw [replyTimeStamp_eq_ok]
    decide +kernel

/-- Some reply is accepted at two different times precisely if both lie in the new
era. -/
theorem replayable_iff {t₁ t₂ : UInt32} (h₁ : t₁ ≤ timeUnixTimestampMax)
    (h₂ : t₂ ≤ timeUnixTimestampMax) (hne : t₁ ≠ t₂) :
    (∃ d, AcceptedAt t₁ d ∧ AcceptedAt t₂ d) ↔ ntpEraChange ≤ t₁ ∧ ntpEraChange ≤ t₂ := by
  constructor
  · rintro ⟨d, hd₁, hd₂⟩
    exact (getLocalNtpTime_eq_iff h₁ h₂ hne).mp (hd₁.originate.symm.trans hd₂.originate)
  · rintro ⟨hera₁, hera₂⟩
    have hzero : ∀ {t}, t ≤ timeUnixTimestampMax → ntpEraChange ≤ t → getLocalNtpTime t = 0 := by
      intro t ht hera
      rw [getLocalNtpTime_eq ht, if_neg (UInt32.not_lt.mpr hera)]
    exact ⟨eraReply, eraReply_acceptedAt (hzero h₁ hera₁), eraReply_acceptedAt (hzero h₂ hera₂)⟩

/-- The time stamp of a request tells `t₁` and `t₂` apart: no reply is accepted at both,
the time stamps differ, and the conversion applied to replies gives the times back. -/
structure ReplayProtected (t₁ t₂ : UInt32) : Prop where
  noReplay : ∀ d, ¬(AcceptedAt t₁ d ∧ AcceptedAt t₂ d)
  injective : getLocalNtpTime t₁ ≠ getLocalNtpTime t₂
  consistent₁ : convertNtpTimeToUnix (getLocalNtpTime t₁) = some t₁
  consistent₂ : convertNtpTimeToUnix (getLocalNtpTime t₂) = some t₂

/-- Requests at two different times of the RTC are told apart precisely if neither is
sent after the first second of the NTP era that begins in 2036. -/
theorem replayProtected_iff (t₁ t₂ : UInt32) (h₁ : t₁ ≤ timeUnixTimestampMax)
    (h₂ : t₂ ≤ timeUnixTimestampMax) (hne : t₁ ≠ t₂) :
    ReplayProtected t₁ t₂ ↔ t₁ ≤ ntpEraChange ∧ t₂ ≤ ntpEraChange := by
  constructor
  · intro h
    exact ⟨(convertNtpTimeToUnix_getLocalNtpTime h₁).mp h.consistent₁,
      (convertNtpTimeToUnix_getLocalNtpTime h₂).mp h.consistent₂⟩
  · rintro ⟨hle₁, hle₂⟩
    have hearly : ¬(ntpEraChange ≤ t₁ ∧ ntpEraChange ≤ t₂) := by
      rintro ⟨hera₁, hera₂⟩
      exact hne ((UInt32.le_antisymm hle₁ hera₁).trans (UInt32.le_antisymm hle₂ hera₂).symm)
    refine ⟨?_, ?_, (convertNtpTimeToUnix_getLocalNtpTime h₁).mpr hle₁,
      (convertNtpTimeToUnix_getLocalNtpTime h₂).mpr hle₂⟩
    · intro d hd
      exact hearly ((replayable_iff h₁ h₂ hne).mp ⟨d, hd⟩)
    · exact mt (getLocalNtpTime_eq_iff h₁ h₂ hne).mp hearly

theorem replayProtected_sample : ReplayProtected 1700000000 1700000016 :=
  (replayProtected_iff 1700000000 1700000016 (by decide) (by decide) (by decide)).mpr
    ⟨by decide, by decide⟩

/-- One reply is accepted for the requests of two different seconds. -/
theorem reply_accepted_twice :
    ¬∀ t₁ t₂ : UInt32, t₁ ≤ timeUnixTimestampMax → t₂ ≤ timeUnixTimestampMax → t₁ ≠ t₂ →
      ∀ d, AcceptedAt t₁ d → ¬AcceptedAt t₂ d := by
  intro h
  exact h 2085978496 2085978497 (by decide) (by decide) (by decide) eraReply
    (eraReply_acceptedAt (by decide)) (eraReply_acceptedAt (by decide))

end Uiso.Sntp
