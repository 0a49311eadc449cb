/-
  Network/Transfer.lean --- `uiso_network_read` and `uiso_network_send` with the
  functions behind their pointers, and the machine of all calls on one context.

  The three send functions loop until the caller's buffer is gone.  `offset` and
  the remaining length are `size_t`, 32 bits wide on the target, and are kept as
  naturals with the wrap-around written out.

  LINK is the machine: its labels are the API calls with the answers the outside
  gives to them.  A call whose answers run out has not returned; the link is
  then hung and takes no further call, but what the call did so far is there.
-/
import Uiso.Network.Connect
import Uiso.Foundation.Machine

set_option autoImplicit false

namespace Uiso.Network

open Uiso.Foundation

/-! ## `size_t` -/

/-- `a + b` on `size_t`. -/
def sizeAdd (a b : Nat) : Nat := (a + b) % 2 ^ 32

/-- `a - b` on `size_t`. -/
def sizeSub (a b : Nat) : Nat := (a + 2 ^ 32 - b) % 2 ^ 32

theorem sizeAdd_eq {a b : Nat} (h : a + b < 2 ^ 32) : sizeAdd a b = a + b :=
  Nat.mod_eq_of_lt h

theorem sizeSub_eq {a b : Nat} (hba : b ≤ a) (ha : a < 2 ^ 32) : sizeSub a b = a - b := by
  unfold sizeSub
  omega

/-! ## Plain sockets -/

/-- A transport send: world, payload, requested length, result. -/
abbrev Transport := World → Payload → Nat → Int → World

/-- The loop of `_send_udp` and `_send_tcp`, from `offset` on. -/
def sendAll (transport : Transport) (length : Nat) : Nat → Nat → Prog World Int
  | 0, _ => Prog.wait
  | rounds + 1, offset =>
      if offset = length then pure (toInt offset)
      else do
        let a ← answer
        Prog.modify fun w =>
          transport w (.app offset (sizeSub length offset)) (sizeSub length offset) a.code
        if a.code ≤ 0 then pure a.code
        else sendAll transport length rounds (sizeAdd offset a.code.toNat)

/-- A loop that takes an answer in each round: the script bounds the rounds. -/
def bounded {α : Type} (loop : Nat → Prog World α) : Prog World α :=
  fun w => loop (w.script.length + 1) w

/-- `_send_udp` -/
def sendUdp (length : Nat) : Prog World Int :=
  bounded fun rounds => sendAll sendBioUdp length rounds 0

/-- `_send_tcp` -/
def sendTcp (length : Nat) : Prog World Int :=
  bounded fun rounds => sendAll sendBioTcp length rounds 0

/-- `_recv_bio_udp` as a `read_fn`. -/
def readUdp (length : Nat) : Prog World Int := do
  let a ← answer
  Prog.modify fun w => recvBioUdp w length a.source a.code
  return recvResult a.code

/-- `_recv_bio_tcp` as a `read_fn`. -/
def readTcp (length : Nat) : Prog World Int := do
  let a ← answer
  Prog.modify fun w => recvBioTcp w length a.code
  return recvResult a.code

/-! ## Secure sessions -/

/-- The handshake, if what came before it succeeded. -/
def handshakeAfter (ret : Int) : Prog World Int :=
  if ret = 0 then sslRetry wantsIo .handshake else pure ret

/-- Close the session, reset it and perform a new handshake: the recovery of
`_read_dtls` and of the write loop of `_send_dtls`. -/
def restartSession : Prog World Int := do
  let _ ← sslRetry wantsIo .closeNotify
  let reset ← sslCall .sessionReset
  handshakeAfter reset.code

/-- The codes for which `_read_dtls` calls `mbedtls_ssl_read` again. -/
def readAgain (code : Int) : Bool :=
  code == mbedtlsErrSslWantWrite || code == mbedtlsErrSslAsyncInProgress ||
    code == mbedtlsErrSslCryptoInProgress || code == mbedtlsErrSslClientReconnect

/-- The recovery of `_read_dtls`; its result is not used. -/
def recoverRead (numBytes : Int) : Prog World Int :=
  if numBytes < 0 then restartSession else pure 0

/-- `_read_dtls` -/
def readDtls (length : Nat) : Prog World Int := do
  let numBytes ← sslRetry readAgain (.read length)
  let _ ← recoverRead numBytes
  return numBytes

/-- The codes for which `_send_dtls` calls `mbedtls_ssl_renegotiate` again. -/
def renegotiateAgain (code : Int) : Bool :=
  code == mbedtlsErrSslWantRead || code == mbedtlsErrSslWantWrite ||
    code == mbedtlsErrSslCryptoInProgress

/-- The codes for which `_send_dtls` calls `mbedtls_ssl_write` again. -/
def writeAgain (code : Int) : Bool :=
  code == mbedtlsErrSslWantRead || code == mbedtlsErrSslWantWrite ||
    code == mbedtlsErrSslAsyncInProgress || code == mbedtlsErrSslCryptoInProgress

/-- After a renegotiation that failed: one close notification, a reset, and a
handshake if both succeeded. -/
def recoverRenegotiation (ret : Int) : Prog World Int :=
  if ret = 0 then pure 0
  else do
    let closed ← sslCall .closeNotify
    let reset ← sslCall .sessionReset
    handshakeAfter (if closed.code = 0 then reset.code else closed.code)

/-- The renegotiation of `_send_dtls`. -/
def renegotiate (idle : UInt32) : Prog World Int := do
  let ret ← sslRetry renegotiateAgain (.renegotiate idle)
  let ret ← recoverRenegotiation ret
  return if ret = 0 then 0 else uisoNetworkDtlsRenegociationFail

/-- What `_send_dtls` does once it knows the answer about connection ids. -/
def refreshSession (cid : Answer) (idle : UInt32) : Prog World Int :=
  if cid.cid = true then pure 0
  else if 120 < idle then renegotiate idle
  else pure cid.code

/-- The head of `_send_dtls`, up to "actual sending". -/
def prepareSend (now : UInt32) : Prog World Int := do
  let cid ← sslCall .getPeerCid
  let last ← Prog.lift fun w => (w.ctx.lastSendTime, w)
  refreshSession cid (now - last)

/-- The write loop of `_send_dtls`, from `offset` on.  It leaves the loop with
the code of a recovery that failed, or returns the offset. -/
def writeAll (length : Nat) : Nat → Nat → Prog World Int
  | 0, _ => Prog.wait
  | rounds + 1, offset =>
      if offset = length then pure (toInt offset)
      else do
        let a ← sslCall (.write offset (sizeSub length offset))
        if writeAgain a.code = true then writeAll length rounds offset
        else if a.code < 0 then do
          let ret ← restartSession
          if ret = 0 then writeAll length rounds offset else pure ret
        else writeAll length rounds (sizeAdd offset a.code.toNat)

/-- "Actual sending". -/
def sendPrepared (length : Nat) (ret : Int) : Prog World Int :=
  if ret = 0 then bounded fun rounds => writeAll length rounds 0 else pure ret

/-- `_send_dtls`, with the times of its two clock readings. -/
def sendDtls (now later : UInt32) (length : Nat) : Prog World Int := do
  let ret ← prepareSend now
  let ret ← sendPrepared length ret
  Prog.modify fun w =>
    if 0 ≤ ret then w.setCtx fun ctx => { ctx with lastSendTime := later } else w
  return ret

/-! ## The API -/

/-- `uiso_network_read`; a call through a null pointer does not come back. -/
def uisoNetworkRead (length : Nat) : Prog World Int := fun w =>
  match w.ctx.readFn with
  | some .recvBioUdp => readUdp length w
  | some .recvBioTcp => readTcp length w
  | some .readDtls => readDtls length w
  | none => Prog.wait w

/-- `uiso_network_send` -/
def uisoNetworkSend (now later : UInt32) (length : Nat) : Prog World Int := fun w =>
  match w.ctx.sendFn with
  | some .sendUdp => sendUdp length w
  | some .sendTcp => sendTcp length w
  | some .sendDtls => sendDtls now later length w
  | none => Prog.wait w

/-! ## Properties that reading and sending keep -/

section Calls

variable {I : World → Prop} (hI : ∀ call, call.isRenegotiation = false → KeptByCall I call)
include hI

theorem keeps_handshakeAfter (ret : Int) : Prog.Keeps I (handshakeAfter ret) :=
  Prog.keeps_ite (fun _ => (hI _ rfl).keeps_sslRetry _) fun _ => Prog.keeps_pure _

theorem keeps_restartSession : Prog.Keeps I restartSession := by
  refine Prog.keeps_bind ((hI _ rfl).keeps_sslRetry _) fun _ => ?_
  exact Prog.keeps_bind (hI _ rfl).keeps_sslCall fun reset => keeps_handshakeAfter hI _

theorem keeps_recoverRead (numBytes : Int) : Prog.Keeps I (recoverRead numBytes) :=
  Prog.keeps_ite (fun _ => keeps_restartSession hI) fun _ => Prog.keeps_pure _

theorem keeps_readDtls (length : Nat) : Prog.Keeps I (readDtls length) := by
  refine Prog.keeps_bind ((hI _ rfl).keeps_sslRetry _) fun numBytes => ?_
  exact Prog.keeps_bind (keeps_recoverRead hI numBytes) fun _ => Prog.keeps_pure _

theorem keeps_recoverRenegotiation (ret : Int) : Prog.Keeps I (recoverRenegotiation ret) := by
  refine Prog.keeps_ite (fun _ => Prog.keeps_pure _) fun _ => ?_
  refine Prog.keeps_bind (hI _ rfl).keeps_sslCall fun closed => ?_
  exact Prog.keeps_bind (hI _ rfl).keeps_sslCall fun reset => keeps_handshakeAfter hI _

theorem keeps_renegotiate {idle : UInt32} (hidle : KeptByCall I (.renegotiate idle)) :
    Prog.Keeps I (renegotiate idle) := by
  refine Prog.keeps_bind (hidle.keeps_sslRetry _) fun ret => ?_
  exact Prog.keeps_bind (keeps_recoverRenegotiation hI ret) fun _ => Prog.keeps_pure _

theorem keeps_prepareSend (hrenegotiate : ∀ idle, KeptByCall I (.renegotiate idle))
    (now : UInt32) : Prog.Keeps I (prepareSend now) := by
  refine Prog.keeps_bind (hI _ rfl).keeps_sslCall fun cid => ?_
  refine Prog.keeps_bind (Prog.keeps_lift fun _ hw => hw) fun last => ?_
  refine Prog.keeps_ite (fun _ => Prog.keeps_pure _) fun _ => ?_
  exact Prog.keeps_ite (fun _ => keeps_renegotiate hI (hrenegotiate _))
    fun _ => Prog.keeps_pure _

theorem keeps_writeAll (length : Nat) :
    ∀ rounds offset, Prog.Keeps I (writeAll length rounds offset) := by
  intro rounds
  induction rounds with
  | zero =>
      intro offset
      exact Prog.keeps_wait
  | succ rounds ih =>
      intro offset
      refine Prog.keeps_ite (fun _ => Prog.keeps_pure _) fun _ => ?_
      refine Prog.keeps_bind (hI _ rfl).keeps_sslCall fun a => ?_
      refine Prog.keeps_ite (fun _ => ih _) fun _ => ?_
      refine Prog.keeps_ite (fun _ => ?_) fun _ => ih _
      refine Prog.keeps_bind (keeps_restartSession hI) fun ret => ?_
      exact Prog.keeps_ite (fun _ => ih _) fun _ => Prog.keeps_pure _

theorem keeps_sendPrepared (length : Nat) (ret : Int) :
    Prog.Keeps I (sendPrepared length ret) :=
  Prog.keeps_ite (fun _ => fun w hw => keeps_writeAll hI length _ 0 w hw)
    fun _ => Prog.keeps_pure _

end Calls

/-- A property of the world that traffic does not destroy: datagrams and
segments sent or received, mbedTLS events, and the time of the last send. -/
structure KeptByTraffic (I : World → Prop) : Prop where
  script : ∀ w rest, I w → I { w with script := rest }
  sendBioUdp : ∀ w payload length result, I w → I (Network.sendBioUdp w payload length result)
  sendBioTcp : ∀ w payload length result, I w → I (Network.sendBioTcp w payload length result)
  recvBioUdp : ∀ w length source result, I w → I (Network.recvBioUdp w length source result)
  recvBioTcp : ∀ w length result, I w → I (Network.recvBioTcp w length result)
  sslCall : ∀ w call, I w → I (w.emit (.sslCall call))
  sslReturn : ∀ w call result, I w → I (w.emit (.sslReturn call result))
  sent : ∀ w time, I w → I (w.setCtx fun ctx => { ctx with lastSendTime := time })

namespace KeptByTraffic

variable {I : World → Prop}

theorem bioAct (hI : KeptByTraffic I) (w : World) (act : BioAct) (hw : I w) :
    I (w.bioAct act) := by
  unfold World.bioAct
  split
  · exact hI.sendBioUdp _ _ _ _ hw
  · exact hI.recvBioUdp _ _ _ _ hw
  · exact hI.sendBioTcp _ _ _ _ hw
  · exact hI.recvBioTcp _ _ _ hw
  · exact hw

theorem calls (hI : KeptByTraffic I) (call : SslCall) : KeptByCall I call where
  script := hI.script
  bioAct := hI.bioAct
  sslCall := fun w => hI.sslCall w call
  sslReturn := fun w => hI.sslReturn w call

theorem otherCalls (hI : KeptByTraffic I) (call : SslCall) (_ : call.isRenegotiation = false) :
    KeptByCall I call :=
  hI.calls call

theorem keeps_answer (hI : KeptByTraffic I) : Prog.Keeps I answer :=
  triple_answer (fun _ hw => hw) fun w _ rest hw => hI.script w rest hw

theorem keeps_sendAll (hI : KeptByTraffic I) {transport : Transport}
    (htransport : ∀ w payload length result, I w → I (transport w payload length result))
    (length : Nat) : ∀ rounds offset, Prog.Keeps I (sendAll transport length rounds offset) := by
  intro rounds
  induction rounds with
  | zero =>
      intro offset
      exact Prog.keeps_wait
  | succ rounds ih =>
      intro offset
      refine Prog.keeps_ite (fun _ => Prog.keeps_pure _) fun _ => ?_
      refine Prog.keeps_bind hI.keeps_answer fun a => ?_
      refine Prog.keeps_bind (Prog.keeps_modify fun w hw => htransport _ _ _ _ hw) fun _ => ?_
      exact Prog.keeps_ite (fun _ => Prog.keeps_pure _) fun _ => ih _

theorem keeps_sendDtls (hI : KeptByTraffic I) (now later : UInt32) (length : Nat) :
    Prog.Keeps I (sendDtls now later length) := by
  refine Prog.keeps_bind (keeps_prepareSend hI.otherCalls (fun _ => hI.calls _) now) fun ret => ?_
  refine Prog.keeps_bind (keeps_sendPrepared hI.otherCalls length ret) fun ret => ?_
  refine Prog.keeps_bind (Prog.keeps_modify fun w hw => ?_) fun _ => Prog.keeps_pure _
  split
  · exact hI.sent w later hw
  · exact hw

theorem keeps_uisoNetworkSend (hI : KeptByTraffic I) (now later : UInt32) (length : Nat) :
    Prog.Keeps I (uisoNetworkSend now later length) := by
  intro w hw
  unfold uisoNetworkSend
  cases w.ctx.sendFn with
  | none => exact hw
  | some fn =>
      cases fn with
      | sendUdp => exact hI.keeps_sendAll hI.sendBioUdp length _ 0 w hw
      | sendTcp => exact hI.keeps_sendAll hI.sendBioTcp length _ 0 w hw
      | sendDtls => exact hI.keeps_sendDtls now later length w hw

theorem keeps_uisoNetworkRead (hI : KeptByTraffic I) (length : Nat) :
    Prog.Keeps I (uisoNetworkRead length) := by
  have hudp : Prog.Keeps I (readUdp length) := by
    refine Prog.keeps_bind hI.keeps_answer fun a => ?_
    exact Prog.keeps_bind (Prog.keeps_modify fun w hw => hI.recvBioUdp _ _ _ _ hw)
      fun _ => Prog.keeps_pure _
  have htcp : Prog.Keeps I (readTcp length) := by
    refine Prog.keeps_bind hI.keeps_answer fun a => ?_
    exact Prog.keeps_bind (Prog.keeps_modify fun w hw => hI.recvBioTcp _ _ _ hw)
      fun _ => Prog.keeps_pure _
  intro w hw
  unfold uisoNetworkRead
  cases w.ctx.readFn with
  | none => exact hw
  | some fn =>
      cases fn with
      | recvBioUdp => exact hudp w hw
      | recvBioTcp => exact htcp w hw
      | readDtls => exact keeps_readDtls hI.otherCalls length w hw

end KeptByTraffic

/-! ## The time of the last send -/

theorem lastSendTime_kept (time : UInt32) (call : SslCall) :
    KeptByCall (fun w => w.ctx.lastSendTime = time) call := by
  refine ⟨fun _ _ h => h, fun w act h => ?_, fun _ h => h, fun _ _ h => h⟩
  unfold World.bioAct
  split <;> exact h

/-- `last_send_time` is written by `_send_dtls` itself and by nothing it calls. -/
theorem sendDtls_lastSendTime {now later : UInt32} {length : Nat} {w w' : World} {n : Int}
    (h : sendDtls now later length w = .returned n w') :
    w'.ctx.lastSendTime = if 0 ≤ n then later else w.ctx.lastSendTime := by
  have hkept := lastSendTime_kept w.ctx.lastSendTime
  have htriple : Prog.Triple (fun w' => w'.ctx.lastSendTime = w.ctx.lastSendTime)
      (sendDtls now later length)
      (fun n w' => w'.ctx.lastSendTime = if 0 ≤ n then later else w.ctx.lastSendTime)
      fun _ => True := by
    refine Prog.triple_bind
      (keeps_prepareSend (fun call _ => hkept call) (fun _ => hkept _) now).returns fun ret => ?_
    refine Prog.triple_bind
      (keeps_sendPrepared (fun call _ => hkept call) length ret).returns fun n => ?_
    refine Prog.triple_bind (Q := fun _ w' => w'.ctx.lastSendTime =
      if 0 ≤ n then later else w.ctx.lastSendTime) (Prog.triple_modify fun w' hw' => ?_)
      fun _ => Prog.triple_pure fun _ h => h
    split
    · rfl
    · exact hw'
  exact htriple.returned rfl h

/-! ## All calls on one context -/

/-- A call on a network context. -/
inductive Call where
  | register (ssl : SslContext)
  | create (net : StackAnswers) (args : ConnectArgs)
  | close (net : StackAnswers)
  | read (length : Nat)
  | send (now later : UInt32) (length : Nat)
  deriving DecidableEq, Repr

/-- The program of a call. -/
def Call.prog : Call → Prog World Int
  | .register ssl => uisoNetworkRegisterSslContext ssl
  | .create net args => uisoCreateNetworkConnection net args
  | .close net => uisoCloseNetworkConnection net
  | .read length => uisoNetworkRead length
  | .send now later length => uisoNetworkSend now later length

/-- A call with the answers it gets. -/
structure Request where
  call : Call
  script : List Answer
  deriving DecidableEq, Repr

/-- A context between calls, or inside one that has not returned. -/
structure Link where
  world : World
  hung : Bool
  deriving DecidableEq, Repr

/-- A context on which nothing has been done yet. -/
def Link.start (ctx : NetworkCtx) : Link := ⟨⟨ctx, [], []⟩, false⟩

/-- The world a request runs in. -/
def Link.given (l : Link) (req : Request) : World := { l.world with script := req.script }

/-- One call. -/
def Link.step (l : Link) (req : Request) : Option Link :=
  if l.hung = true then none
  else
    match req.call.prog (l.given req) with
    | .returned _ w => some ⟨w, false⟩
    | .waiting w => some ⟨w, true⟩

/-- All calls on one context. -/
def link : Machine Link Request := ⟨Link.step⟩

/-- What a call keeps whether it returns or not, a step of the link keeps. -/
theorem Link.step_keeps {I : World → Prop} {l l' : Link} {req : Request}
    (hscript : ∀ w rest, I w → I { w with script := rest }) (hcall : Prog.Keeps I req.call.prog)
    (hl : I l.world) (hstep : l.step req = some l') : I l'.world := by
  unfold Link.step at hstep
  split at hstep
  · exact absurd hstep (by simp)
  have hgiven : I (l.given req) := hscript _ _ hl
  cases hprog : req.call.prog (l.given req) with
  | returned ret w =>
      obtain rfl : (⟨w, false⟩ : Link) = l' := by simpa [hprog] using hstep
      exact hcall.returned hgiven hprog
  | waiting w =>
      obtain rfl : (⟨w, true⟩ : Link) = l' := by simpa [hprog] using hstep
      exact hcall.waiting hgiven hprog

end Uiso.Network
