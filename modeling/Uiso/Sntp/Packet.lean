/-
  Sntp/Packet.lean --- `struct ntp_packet_s` and `sntp_packet_create_request`.

  The packet is one static array of 48 bytes.  The request is built in it and the
  reply is received over it, so the model keeps it byte by byte.  Time stamps are
  32-bit words that the processor reads and writes in its own, little-endian,
  order and turns around with `__REV`.
-/
import Uiso.Foundation.Buffer
import Uiso.Network.Context
import Uiso.Sntp.Types

set_option autoImplicit false

namespace Uiso.Sntp

open Uiso.Foundation
open Uiso.Network (rev)

/-! ## Byte order -/

theorem revMask_getLsbD : ∀ i < 32, (0xFF00#32).getLsbD i = decide (8 ≤ i ∧ i < 16) := by
  decide

/-- `__REV` turns the four bytes around. -/
theorem rev_getLsbD (x : UInt32) {i : Nat} (hi : i < 32) :
    (rev x).toBitVec.getLsbD i = x.toBitVec.getLsbD (24 - 8 * (i / 8) + i % 8) := by
  have h24 : ((24 : UInt32).toBitVec % 32).toNat = 24 := by decide
  have h8 : ((8 : UInt32).toBitVec % 32).toNat = 8 := by decide
  have hmask : (0xFF00 : UInt32).toBitVec = 0xFF00#32 := rfl
  have hlow := revMask_getLsbD i hi
  have hhigh := revMask_getLsbD (i - 8) (by omega)
  simp only [rev, UInt32.toBitVec_or, UInt32.toBitVec_shiftLeft, UInt32.toBitVec_and,
    UInt32.toBitVec_shiftRight, BitVec.getLsbD_or, BitVec.shiftLeft_eq', BitVec.ushiftRight_eq',
    h24, h8, BitVec.getLsbD_shiftLeft, BitVec.getLsbD_ushiftRight, BitVec.getLsbD_and, hmask,
    hlow, hhigh]
  -- one of the four shifts supplies the bit, by the byte `i` lies in
  have hbyte : i < 8 ∨ (8 ≤ i ∧ i < 16) ∨ (16 ≤ i ∧ i < 24) ∨ 24 ≤ i := by omega
  rcases hbyte with h | h | h | h
  · have hindex : 24 - 8 * (i / 8) + i % 8 = 24 + i := by omega
    simp [hindex, h, show i < 24 by omega, show ¬8 ≤ i by omega]
  · have hindex : 24 - 8 * (i / 8) + i % 8 = 8 + i := by omega
    have hout := BitVec.getLsbD_of_ge x.toBitVec _ (show 32 ≤ 24 + i by omega)
    simp [hindex, h, show i < 24 by omega, show ¬8 ≤ i - 8 by omega, hout]
  · have hindex : 24 - 8 * (i / 8) + i % 8 = i - 8 := by omega
    have hout := BitVec.getLsbD_of_ge x.toBitVec _ (show 32 ≤ 24 + i by omega)
    simp [hindex, h, hi, show ¬i < 8 by omega, show ¬i < 16 by omega,
      show 8 ≤ i - 8 by omega, show i - 8 < 16 by omega, hout]
  · have hindex : 24 - 8 * (i / 8) + i % 8 = i - 24 := by omega
    have hout := BitVec.getLsbD_of_ge x.toBitVec _ (show 32 ≤ 24 + i by omega)
    simp [hindex, h, hi, show ¬i - 8 < 16 by omega, show ¬i < 16 by omega, hout]

@[simp] theorem rev_rev (x : UInt32) : rev (rev x) = x := by
  apply UInt32.eq_of_toBitVec_eq
  apply BitVec.eq_of_getLsbD_eq
  intro i hi
  rw [rev_getLsbD _ hi, rev_getLsbD _ (by omega)]
  congr 1
  omega

/-! ## The packet -/

/-- `struct ntp_packet_s` -/
abbrev Packet := Buffer 48

namespace Packet

/-- `leap_version_mode` -/
def leapVersionMode (p : Packet) : UInt8 := p.byte 0
/-- `stratum` -/
def stratum (p : Packet) : UInt8 := p.byte 1
/-- `poll_interval` -/
def pollInterval (p : Packet) : UInt8 := p.byte 2
/-- `originate_timestamp_seconds`, in the processor's order -/
def originateTimestampSeconds (p : Packet) : UInt32 := rev (p.load 24)
/-- `originate_timestamp_fraction`, in the processor's order -/
def originateTimestampFraction (p : Packet) : UInt32 := rev (p.load 28)
/-- `recieve_timestamp_seconds`, in the processor's order -/
def receiveTimestampSeconds (p : Packet) : UInt32 := rev (p.load 32)
/-- `transmit_timestamp_seconds`, in the processor's order -/
def transmitTimestampSeconds (p : Packet) : UInt32 := rev (p.load 40)
/-- `transmit_timestamp_fraction`, in the processor's order -/
def transmitTimestampFraction (p : Packet) : UInt32 := rev (p.load 44)

/-- `*(uint64_t*) &ntp_packet.transmit_timestamp_seconds[0]` -/
def transmitTimestamp (p : Packet) : UInt64 :=
  UInt64.ofNat ((p.load 40).toNat + 2 ^ 32 * (p.load 44).toNat)

end Packet

/-! ## The header byte -/

/-- `enum sntp_vn_e` -/
inductive Version where
  | v0
  | v1
  | v2
  | v3
  | v4
  deriving DecidableEq, Repr

/-- The enumerator's value: the version number in bits 3 to 5. -/
def Version.bits : Version → UInt8
  | .v0 => (0 : UInt8) <<< 3
  | .v1 => (1 : UInt8) <<< 3
  | .v2 => (2 : UInt8) <<< 3
  | .v3 => (3 : UInt8) <<< 3
  | .v4 => (4 : UInt8) <<< 3

/-- `ntp_leap_indicator_no_warning` -/
def ntpLeapIndicatorNoWarning : UInt8 := (0 : UInt8) <<< 6
/-- `ntp_mode_symmetric_client` -/
def ntpModeSymmetricClient : UInt8 := 3
/-- `ntp_mode_symmetric_server` -/
def ntpModeSymmetricServer : UInt8 := 4

/-- `sntp_client_request_v4` -/
def sntpClientRequestV4 : UInt8 :=
  ntpLeapIndicatorNoWarning ||| Version.v4.bits ||| ntpModeSymmetricClient
/-- `sntp_server_response_v3` -/
def sntpServerResponseV3 : UInt8 := Version.v3.bits ||| ntpModeSymmetricServer
/-- `sntp_server_response_v4` -/
def sntpServerResponseV4 : UInt8 := Version.v4.bits ||| ntpModeSymmetricServer

/-- `ntp_stratum_kod` -/
def ntpStratumKod : UInt8 := 0

/-! ## The request -/

/-- `sntp_packet_create_request`; `none` is a null pointer. -/
def sntpPacketCreateRequest (packet : Option Packet) (originate originateFrac : UInt32)
    (version : Version) : ReturnCode × Option Packet :=
  match packet with
  | none => (.nullPointer, none)
  | some _ =>
      let packet := Buffer.zero 48
      if version = .v4 then
        let packet := packet.setByte 0 sntpClientRequestV4
        let packet := packet.store 40 (rev originate)
        (.success, some (packet.store 44 (rev originateFrac)))
      else (.invalidVersion, some packet)

/-- The version 4 request, which does not depend on what the array held. -/
def requestPacket (originate originateFrac : UInt32) : Packet :=
  (((Buffer.zero 48).setByte 0 sntpClientRequestV4).store 40 (rev originate)).store 44
    (rev originateFrac)

theorem sntpPacketCreateRequest_v4 (packet : Packet) (originate originateFrac : UInt32) :
    sntpPacketCreateRequest (some packet) originate originateFrac .v4 =
      (.success, some (requestPacket originate originateFrac)) := rfl

theorem requestPacket_transmitTimestampSeconds (originate originateFrac : UInt32) :
    Packet.transmitTimestampSeconds (requestPacket originate originateFrac) = originate := by
  rw [Packet.transmitTimestampSeconds, requestPacket,
    Buffer.load_store_other _ _ (by omega), Buffer.load_store_same _ _ (by omega), rev_rev]

theorem requestPacket_transmitTimestampFraction (originate originateFrac : UInt32) :
    Packet.transmitTimestampFraction (requestPacket originate originateFrac) =
      originateFrac := by
  rw [Packet.transmitTimestampFraction, requestPacket, Buffer.load_store_same _ _ (by omega),
    rev_rev]

end Uiso.Sntp
