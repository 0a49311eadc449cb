/-
  Sntp/Types.lean --- the return codes of a request (`uiso_ntp.h`), and what its caller sees.

  `wifi_task` sees of one `uiso_sntp_request` the code, the value left in
  `*time_to_next_sync` and the new `sntp_sync_state`.
-/
import Mathlib.Logic.Basic

set_option autoImplicit false

namespace Uiso.Sntp

/-- `enum sntp_return_codes_e`. -/
inductive ReturnCode where
  | success
  | nullPointer
  | invalidVersion
  | serverNoServer
  | serverIpDnsError
  | serverIpError
  | serverIpMismatch
  | serverReplyHeaderError
  | serverReplyKod
  | serverReplyInvalid
  | serverTransmitZero
  | timestampFormatError
  | setRtcError
  | setSimplelinkError
  deriving DecidableEq, Repr, Inhabited

/-- The outcome of one `uiso_sntp_request` as its caller sees it. -/
structure Reply where
  rcode : ReturnCode
  /-- `*time_to_next_sync`, in milliseconds; zero when the request left it -/
  timeToNextSync : Nat
  /-- `sntp_sync_state` after the request -/
  synced : Bool
  deriving DecidableEq, Repr, Inhabited

end Uiso.Sntp
