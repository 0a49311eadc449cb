/-
  Network/Context.lean --- the data of `network.h` and `network.c`: protocols,
  return codes, the network context, and the calls the code makes into the
  SimpleLink driver and mbedTLS.

  THE OUTSIDE.  SimpleLink runs on the CC3100 and mbedTLS is a submodule, so
  what they answer is input.  Calls that happen at most once in an API call
  (name resolution, socket, bind, connect, close) take their results from
  `StackAnswers`; calls that sit in a loop take the next `Answer` of a script.
  Every call is recorded, with its result, in the trace of the world.

  BIO CALLBACKS.  An mbedTLS call may send and receive records through the
  callbacks installed on the ssl context before it returns.  An `Answer`
  carries these callback invocations; running them is what lets a received
  datagram change the context in the middle of an mbedTLS call.
-/
import Uiso.Foundation.Prog
import Mathlib.Algebra.Ring.Int.Defs
import Mathlib.Algebra.Ring.Nat

set_option autoImplicit false

namespace Uiso.Network

open Uiso.Foundation

/-! ## Protocols -/

/-- `enum uiso_protocol`. -/
inductive Protocol where
  | noProtocol
  | udpIp4
  | tcpIp4
  | udpIp6
  | tcpIp6
  | dtlsIp4
  | tlsIp4
  | dtlsIp6
  | tlsIp6
  | max
  deriving DecidableEq, Repr, Inhabited

/-- `UISO_PROTOCOL_BIT_MASK` -/
def uisoProtocolBitMask : Nat := 1 <<< 0
/-- `UISO_UDP_SELECTION_BIT_MASK` -/
def uisoUdpSelectionBitMask : Nat := 1 <<< 1
/-- `UISO_TCP_SELECTION_BIT_MASK` -/
def uisoTcpSelectionBitMask : Nat := 1 <<< 2
/-- `UISO_IPV4_IPV6_SELECTION_BIT_MASK` -/
def uisoIpv4Ipv6SelectionBitMask : Nat := 1 <<< 3
/-- `UISO_SECURITY_BIT_MASK` -/
def uisoSecurityBitMask : Nat := 1 <<< 4
/-- `UISO_PROTOCOL_MASK` -/
def uisoProtocolMask : Nat :=
  uisoProtocolBitMask ||| uisoUdpSelectionBitMask ||| uisoTcpSelectionBitMask |||
    uisoIpv4Ipv6SelectionBitMask ||| uisoSecurityBitMask

/-- `uiso_protocol_udp` -/
def uisoProtocolUdp : Nat := uisoUdpSelectionBitMask ||| uisoProtocolBitMask
/-- `uiso_protocol_tcp` -/
def uisoProtocolTcp : Nat := uisoTcpSelectionBitMask ||| uisoProtocolBitMask
/-- `uiso_protocol_ip4` -/
def uisoProtocolIp4 : Nat := 0 <<< 3 ||| uisoProtocolBitMask
/-- `uiso_protocol_ip6` -/
def uisoProtocolIp6 : Nat := 1 <<< 3 ||| uisoProtocolBitMask

/-- An enumerator with the security bit added. -/
def secured (value : Nat) : Nat := (value ||| uisoSecurityBitMask) &&& uisoProtocolMask

/-- The enumerators' values. -/
def Protocol.value : Protocol → Nat
  | .noProtocol => 0
  | .udpIp4 => uisoProtocolUdp ||| uisoProtocolIp4
  | .tcpIp4 => uisoProtocolTcp ||| uisoProtocolIp4
  | .udpIp6 => uisoProtocolUdp ||| uisoProtocolIp6
  | .tcpIp6 => uisoProtocolTcp ||| uisoProtocolIp6
  | .dtlsIp4 => secured (uisoProtocolUdp ||| uisoProtocolIp4)
  | .tlsIp4 => secured (uisoProtocolTcp ||| uisoProtocolIp4)
  | .dtlsIp6 => secured (uisoProtocolUdp ||| uisoProtocolIp6)
  | .tlsIp6 => secured (uisoProtocolTcp ||| uisoProtocolIp6)
  | .max => uisoProtocolMask

/-- `(UISO_SECURITY_BIT_MASK & proto) == UISO_SECURITY_BIT_MASK`. -/
def Protocol.secure (p : Protocol) : Bool :=
  (uisoSecurityBitMask &&& p.value) == uisoSecurityBitMask

/-! ## Codes -/

/-- `UISO_NETWORK_OK` -/
def uisoNetworkOk : Int := 0
/-- `UISO_NETWORK_GENERIC_ERROR`, that is `INT32_MIN` -/
def uisoNetworkGenericError : Int := -2 ^ 31
/-- `UISO_NETWORK_SOCKET_ERROR` -/
def uisoNetworkSocketError : Int := uisoNetworkGenericError + 1
/-- `UISO_NETWORK_BIND_ERROR` -/
def uisoNetworkBindError : Int := uisoNetworkGenericError + 2
/-- `UISO_NETWORK_CONNECT_ERROR` -/
def uisoNetworkConnectError : Int := uisoNetworkGenericError + 3
/-- `UISO_NETWORK_DNS_ERROR` -/
def uisoNetworkDnsError : Int := uisoNetworkGenericError + 4
/-- `UISO_NETWORK_NULL_CTX` -/
def uisoNetworkNullCtx : Int := uisoNetworkGenericError + 5
/-- `UISO_NETWORK_NEGATIVE_SD` -/
def uisoNetworkNegativeSd : Int := uisoNetworkGenericError + 6
/-- `UISO_NETWORK_DTLS_RENEGOCIATION_FAIL` -/
def uisoNetworkDtlsRenegociationFail : Int := uisoNetworkGenericError + 10

/-- `UISO_NETWORK_INVALID_SOCKET` -/
def uisoNetworkInvalidSocket : Int := -1

/-- `SL_EAGAIN` -/
def slEagain : Int := -11
/-- `SL_EALREADY` -/
def slEalready : Int := -114

/-- `MBEDTLS_ERR_SSL_WANT_READ` -/
def mbedtlsErrSslWantRead : Int := -0x6900
/-- `MBEDTLS_ERR_SSL_WANT_WRITE` -/
def mbedtlsErrSslWantWrite : Int := -0x6880
/-- `MBEDTLS_ERR_SSL_ASYNC_IN_PROGRESS` -/
def mbedtlsErrSslAsyncInProgress : Int := -0x6500
/-- `MBEDTLS_ERR_SSL_CRYPTO_IN_PROGRESS` -/
def mbedtlsErrSslCryptoInProgress : Int := -0x7000
/-- `MBEDTLS_ERR_SSL_CLIENT_RECONNECT` -/
def mbedtlsErrSslClientReconnect : Int := -0x6780

/-- Conversion to the 16-bit `_i16` of the SimpleLink API. -/
def toI16 (n : Int) : Int := n.bmod (2 ^ 16)

/-- Conversion of a `size_t` to `int`. -/
def toInt (n : Nat) : Int := (n : Int).bmod (2 ^ 32)

theorem toInt_eq {n : Nat} (h : n < 2 ^ 31) : toInt n = n := by
  unfold toInt
  rw [Int.bmod_def]
  split <;> omega

/-! ## Addresses -/

/-- `SlSockAddrIn_t`. -/
structure SockAddrIn where
  family : UInt16
  port : UInt16
  addr : UInt32
  deriving DecidableEq, Repr, Inhabited

/-- `SL_AF_INET` -/
def slAfInet : UInt16 := 2

/-- `sizeof(SlSockAddrIn_t)` -/
def sockAddrInSize : Nat := 16

/-- `__REV16` on a half-word. -/
def rev16 (x : UInt16) : UInt16 := (x <<< 8) ||| (x >>> 8)

/-- `__REV`. -/
def rev (x : UInt32) : UInt32 :=
  (x <<< 24) ||| ((x &&& (0xFF00 : UInt32)) <<< 8) ||| ((x >>> 8) &&& (0xFF00 : UInt32)) |||
    (x >>> 24)

/-- The decimal digits at the front of a string, as `atoi` accumulates them. -/
def atoiDigits : Int → List Char → Int
  | acc, [] => acc
  | acc, c :: cs =>
      if c.isDigit then atoiDigits (acc * 10 + ((c.toNat : Int) - 48)) cs else acc

/-- `atoi`: leading white space, an optional sign, digits. -/
def atoi (s : String) : Int :=
  match s.toList.dropWhile Char.isWhitespace with
  | '-' :: cs => -atoiDigits 0 cs
  | '+' :: cs => atoiDigits 0 cs
  | cs => atoiDigits 0 cs

/-- A port given as text, in network byte order: `__REV16(atoi(port))`. -/
def portOf (port : String) : UInt16 := rev16 (UInt16.ofNat (atoi port % 2 ^ 16).toNat)

/-! ## The context -/

/-- `enum wifi_socket_id_e`: the network contexts of the system. -/
inductive WifiSocketId where
  | ntp
  | lwm2m
  | mqtt
  | http
  deriving DecidableEq, Repr

/-- All of them, in the order in which the code visits them. -/
def WifiSocketId.all : List WifiSocketId := [.ntp, .lwm2m, .mqtt, .http]

theorem WifiSocketId.mem_all (id : WifiSocketId) : id ∈ WifiSocketId.all := by
  cases id <;> decide

instance {P : WifiSocketId → Prop} [DecidablePred P] : Decidable (∀ id, P id) :=
  decidable_of_iff (∀ id ∈ WifiSocketId.all, P id)
    ⟨fun h id => h id id.mem_all, fun h id _ => h id⟩

/-- The pairs of BIO callbacks `_set_mbedtls_bio` installs. -/
inductive Bio where
  /-- `_send_bio_udp`, `_recv_bio_udp` -/
  | udp
  /-- `_send_bio_tcp`, `_recv_bio_tcp` -/
  | tcp
  deriving DecidableEq, Repr

/-- The part of an `mbedtls_ssl_context` the code sets. -/
structure SslContext where
  bio : Option Bio
  mtu : Nat
  deriving DecidableEq, Repr

/-- `mbedtls_ssl_init`: no callbacks, no MTU. -/
def SslContext.fresh : SslContext := ⟨none, 0⟩

/-- The values of `send_fn`. -/
inductive SendFn where
  | sendUdp
  | sendTcp
  | sendDtls
  deriving DecidableEq, Repr

/-- The values of `read_fn`. -/
inductive ReadFn where
  | recvBioUdp
  | recvBioTcp
  | readDtls
  deriving DecidableEq, Repr

/-- The values of `close_fn`. -/
inductive CloseFn where
  | networkClose
  deriving DecidableEq, Repr

/-- `struct uiso_sockets_s`, without the wait deadlines and signals, which
belong to the network monitor.  `sslContext` is the context the pointer leads
to. -/
structure NetworkCtx where
  sd : Int
  protocol : Protocol
  sendFn : Option SendFn
  readFn : Option ReadFn
  closeFn : Option CloseFn
  localAddr : SockAddrIn
  localLen : Nat
  peer : SockAddrIn
  peerLen : Nat
  sslContext : Option SslContext
  lastSendTime : UInt32
  lastRecvTime : UInt32
  deriving DecidableEq, Repr

/-- `_initialize_network_ctx`. -/
def initializeNetworkCtx : NetworkCtx where
  sd := uisoNetworkInvalidSocket
  protocol := .noProtocol
  sendFn := none
  readFn := none
  closeFn := none
  localAddr := ⟨0, 0, 0⟩
  localLen := 0
  peer := ⟨0, 0, 0⟩
  peerLen := 0
  sslContext := none
  lastSendTime := 0
  lastRecvTime := 0

/-- The callbacks installed on the registered ssl context. -/
def NetworkCtx.bio (ctx : NetworkCtx) : Option Bio := ctx.sslContext.bind (·.bio)

/-! ## Calls and answers -/

/-- The mbedTLS calls that can fail. -/
inductive SslCall where
  | handshake
  | closeNotify
  | sessionReset
  /-- with the seconds since the last send, as `_send_dtls` computes them -/
  | renegotiate (idle : UInt32)
  | getPeerCid
  | read (length : Nat)
  /-- the rest of the caller's buffer, from `offset` on -/
  | write (offset length : Nat)
  deriving DecidableEq, Repr

/-- The call asks for a renegotiation. -/
def SslCall.isRenegotiation : SslCall → Bool
  | .renegotiate _ => true
  | _ => false

/-- What is handed to the transport. -/
inductive Payload where
  /-- a piece of the caller's buffer -/
  | app (offset length : Nat)
  /-- a record built by mbedTLS -/
  | record (length : Nat)
  deriving DecidableEq, Repr

/-- What the network code does to the outside, in the order in which it happens.
An mbedTLS call has two events, so that what it does through the callbacks
stands between them and a call that never returns is seen as well. -/
inductive NetEvent where
  | dnsGetHostByName (host : String) (status : Int)
  /-- `_network_connect` stores the address it resolved -/
  | peerResolved (peer : SockAddrIn)
  | socket (type protocol : Int) (sd : Int)
  | setNonblocking (sd : Int)
  | bind (sd : Int) (addr : SockAddrIn) (result : Int)
  | connect (sd : Int) (addr : SockAddrIn) (result : Int)
  | close (sd : Int) (result : Int)
  | sendTo (sd : Int) (payload : Payload) (length : Int) (dest : SockAddrIn) (result : Int)
  | send (sd : Int) (payload : Payload) (length : Int) (result : Int)
  | recvFrom (sd : Int) (length : Int) (source : SockAddrIn) (result : Int)
  | recv (sd : Int) (length : Int) (result : Int)
  | sslCall (call : SslCall)
  | sslReturn (call : SslCall) (result : Int)
  deriving DecidableEq, Repr

/-- One invocation of a BIO callback by mbedTLS. -/
inductive BioAct where
  | send (length : Nat) (result : Int)
  | recv (length : Nat) (source : SockAddrIn) (result : Int)
  deriving DecidableEq, Repr

/-- The answer to one call. -/
structure Answer where
  code : Int
  /-- callbacks run before an mbedTLS call returns -/
  bio : List BioAct := []
  /-- source address, for a receive -/
  source : SockAddrIn := ⟨0, 0, 0⟩
  /-- `cid_enabled`, for `mbedtls_ssl_get_peer_cid` -/
  cid : Bool := false
  deriving DecidableEq, Repr

/-- The answers to the calls that `uiso_create_network_connection` and
`uiso_close_network_connection` make at most once. -/
structure StackAnswers where
  dnsStatus : Int
  dnsAddr : UInt32
  socket : Int
  bind : Int
  connect : Int
  close : Int
  time : UInt32
  deriving DecidableEq, Repr

/-- What the network code works on: one context, the answers still to come, and
the calls made so far. -/
structure World where
  ctx : NetworkCtx
  script : List Answer
  trace : List NetEvent
  deriving DecidableEq, Repr

namespace World

/-- Record a call. -/
def emit (w : World) (e : NetEvent) : World := { w with trace := w.trace ++ [e] }

@[simp] theorem emit_ctx (w : World) (e : NetEvent) : (w.emit e).ctx = w.ctx := rfl

@[simp] theorem emit_script (w : World) (e : NetEvent) : (w.emit e).script = w.script := rfl

@[simp] theorem emit_trace (w : World) (e : NetEvent) :
    (w.emit e).trace = w.trace ++ [e] := rfl

/-- Update the context. -/
def setCtx (w : World) (f : NetworkCtx → NetworkCtx) : World := { w with ctx := f w.ctx }

@[simp] theorem setCtx_ctx (w : World) (f : NetworkCtx → NetworkCtx) :
    (w.setCtx f).ctx = f w.ctx := rfl

@[simp] theorem setCtx_script (w : World) (f : NetworkCtx → NetworkCtx) :
    (w.setCtx f).script = w.script := rfl

@[simp] theorem setCtx_trace (w : World) (f : NetworkCtx → NetworkCtx) :
    (w.setCtx f).trace = w.trace := rfl

end World

/-! ## The transport callbacks -/

/-- `_send_bio_udp`: the datagram goes to `ctx->peer`. -/
def sendBioUdp (w : World) (payload : Payload) (length : Nat) (result : Int) : World :=
  w.emit (.sendTo w.ctx.sd payload (toI16 length) w.ctx.peer result)

/-- `_send_bio_tcp`. -/
def sendBioTcp (w : World) (payload : Payload) (length : Nat) (result : Int) : World :=
  w.emit (.send w.ctx.sd payload (toI16 length) result)

/-- The value the receive callbacks return for a driver result. -/
def recvResult (result : Int) : Int :=
  if result = slEagain then mbedtlsErrSslWantRead else result

/-- `_recv_bio_udp`: `sl_RecvFrom` stores the source of the datagram in
`ctx->peer` when it delivers one. -/
def recvBioUdp (w : World) (length : Nat) (source : SockAddrIn) (result : Int) : World :=
  let w := w.setCtx fun ctx =>
    { ctx with peerLen := sockAddrInSize, peer := if 0 ≤ result then source else ctx.peer }
  w.emit (.recvFrom w.ctx.sd (toI16 length) source result)

/-- `_recv_bio_tcp`. -/
def recvBioTcp (w : World) (length : Nat) (result : Int) : World :=
  w.emit (.recv w.ctx.sd (toI16 length) result)

/-- One callback invocation, through the callbacks that are installed. -/
def World.bioAct (w : World) (act : BioAct) : World :=
  match w.ctx.bio, act with
  | some .udp, .send length result => sendBioUdp w (.record length) length result
  | some .udp, .recv length source result => recvBioUdp w length source result
  | some .tcp, .send length result => sendBioTcp w (.record length) length result
  | some .tcp, .recv length _ result => recvBioTcp w length result
  | none, _ => w

/-- The next answer of the script. -/
def answer : Prog World Answer := fun w =>
  match w.script with
  | [] => .waiting w
  | a :: rest => .returned a { w with script := rest }

/-- An mbedTLS call on `ctx->ssl_context`. -/
def sslCall (call : SslCall) : Prog World Answer := do
  Prog.modify fun w => w.emit (.sslCall call)
  let a ← answer
  Prog.modify fun w => (a.bio.foldl World.bioAct w).emit (.sslReturn call a.code)
  return a

/-- `(MBEDTLS_ERR_SSL_WANT_READ == ret) || (MBEDTLS_ERR_SSL_WANT_WRITE == ret)`. -/
def wantsIo (code : Int) : Bool :=
  code == mbedtlsErrSslWantRead || code == mbedtlsErrSslWantWrite

/-- `do { ret = call(..); } while (again(ret))`.  Each round takes an answer, so
the script bounds the rounds. -/
def sslRetry (again : Int → Bool) (call : SslCall) : Prog World Int := do
  let rounds ← Prog.lift fun w => (w.script.length + 1, w)
  let a ← Prog.retry (fun a => again a.code) (sslCall call) rounds
  return a.code

/-! ## Rules for these calls -/

/-- What a call to `answer` gives. -/
theorem triple_answer {P R : World → Prop} {Q : Answer → World → Prop}
    (hnone : ∀ w, P w → R w)
    (hsome : ∀ w a rest, P w → Q a { w with script := rest }) : Prog.Triple P answer Q R := by
  intro w hw
  unfold answer
  cases w.script with
  | nil => exact hnone w hw
  | cons a rest => exact hsome w a rest hw

/-- The world after an mbedTLS call that was answered by `a`. -/
def World.afterSsl (w : World) (call : SslCall) (a : Answer) : World :=
  (a.bio.foldl World.bioAct (w.emit (.sslCall call))).emit (.sslReturn call a.code)

/-- What an mbedTLS call gives: it may hang once called, or return an answer. -/
theorem triple_sslCall {P R : World → Prop} {Q : Answer → World → Prop} {call : SslCall}
    (hhang : ∀ w, P w → R (w.emit (.sslCall call)))
    (hreturn : ∀ w a rest, P w → Q a (World.afterSsl { w with script := rest } call a)) :
    Prog.Triple P (sslCall call) Q R := by
  unfold sslCall
  refine Prog.triple_bind (Q := fun _ w' => ∃ w, P w ∧ w' = w.emit (.sslCall call)) ?_ fun _ => ?_
  · exact Prog.triple_modify fun w hw => ⟨w, hw, rfl⟩
  refine Prog.triple_bind (triple_answer (Q := fun a w' => ∃ w rest, P w ∧
    w' = World.emit { w with script := rest } (.sslCall call)) ?_ ?_) fun a => ?_
  · rintro _ ⟨w, hw, rfl⟩
    exact hhang w hw
  · rintro _ a rest ⟨w, hw, rfl⟩
    exact ⟨w, rest, hw, rfl⟩
  refine Prog.triple_bind (Q := fun _ => Q a) (Prog.triple_modify ?_) fun _ => ?_
  · rintro _ ⟨w, rest, hw, rfl⟩
    exact hreturn w a rest hw
  · exact Prog.triple_pure fun _ hw => hw

/-- The retry loop around an mbedTLS call: `P` before the first round, `I` before
every further one. -/
theorem triple_sslRetry {P I R : World → Prop} {Q : Int → World → Prop} {again : Int → Bool}
    {call : SslCall}
    (hfirst : Prog.Triple P (sslCall call)
      (fun a w => if again a.code = true then I w else Q a.code w) R)
    (hnext : Prog.Triple I (sslCall call)
      (fun a w => if again a.code = true then I w else Q a.code w) R)
    (hR : ∀ w, I w → R w) : Prog.Triple P (sslRetry again call) Q R := by
  have hloop : ∀ n, Prog.Triple P
      (Prog.retry (fun a => again a.code) (sslCall call) (n + 1)) (fun a => Q a.code) R :=
    Prog.triple_retry_first hfirst hnext hR
  intro w hw
  unfold sslRetry
  rw [Prog.bind_returned (Prog.lift_apply _ _)]
  exact Prog.triple_bind (hloop w.script.length) (fun a => Prog.triple_pure fun _ h => h) w hw

/-! ## Properties that every mbedTLS call keeps -/

/-- What one callback keeps, all callbacks of a call keep. -/
theorem World.bioActs_keep {I : World → Prop} (hI : ∀ w act, I w → I (w.bioAct act))
    (acts : List BioAct) : ∀ w, I w → I (acts.foldl World.bioAct w) := by
  induction acts with
  | nil =>
      intro w hw
      exact hw
  | cons act acts ih =>
      intro w hw
      exact ih _ (hI w act hw)

/-- A property of the world that an mbedTLS call and its callbacks do not
destroy. -/
structure KeptByCall (I : World → Prop) (call : SslCall) : Prop where
  script : ∀ w rest, I w → I { w with script := rest }
  bioAct : ∀ w act, I w → I (w.bioAct act)
  sslCall : ∀ w, I w → I (w.emit (.sslCall call))
  sslReturn : ∀ w result, I w → I (w.emit (.sslReturn call result))

namespace KeptByCall

variable {I : World → Prop} {call : SslCall}

theorem afterSsl (hI : KeptByCall I call) {w : World} (a : Answer) (hw : I w) :
    I (w.afterSsl call a) :=
  hI.sslReturn _ _ (World.bioActs_keep hI.bioAct a.bio _ (hI.sslCall _ hw))

theorem keeps_sslCall (hI : KeptByCall I call) : Prog.Keeps I (Network.sslCall call) :=
  triple_sslCall (fun w hw => hI.sslCall w hw)
    fun w a rest hw => hI.afterSsl a (hI.script w rest hw)

theorem keeps_sslRetry (hI : KeptByCall I call) (again : Int → Bool) :
    Prog.Keeps I (sslRetry again call) := by
  have hround : Prog.Triple I (Network.sslCall call)
      (fun a w => if again a.code = true then I w else I w) I :=
    hI.keeps_sslCall.mono (fun _ h => h) (fun _ _ h => by simpa using h) fun _ h => h
  exact triple_sslRetry hround hround fun _ h => h

end KeptByCall

end Uiso.Network
