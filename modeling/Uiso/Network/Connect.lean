/-
  Network/Connect.lean --- opening and closing a connection:
  `_set_mbedtls_bio`, `_network_connect`, `uiso_create_network_connection`,
  `_network_close` and `uiso_close_network_connection`.

  `uiso_create_network_connection` has a part without loops, which ends when
  `_network_connect` returns, and the handshake loop.  `prepareConnection` is
  the first part; it is a total function of the context and the answers of the
  stack, so what holds when `mbedtls_ssl_handshake` is first called can be read
  off its result.
-/
import Uiso.Network.Context

set_option autoImplicit false

namespace Uiso.Network

open Uiso.Foundation

/-! ## Opening -/

/-- The arguments of `uiso_create_network_connection` besides the context. -/
structure ConnectArgs where
  host : String
  port : String
  localPort : Option String
  proto : Protocol
  deriving DecidableEq, Repr

/-- `SOCK_STREAM` -/
def sockStream : Int := 1
/-- `SOCK_DGRAM` -/
def sockDgram : Int := 2
/-- `IPPROTO_TCP` -/
def ipprotoTcp : Int := 6
/-- `IPPROTO_UDP` -/
def ipprotoUdp : Int := 17
/-- `SIMPLELINK_MAX_SEND_MTU` -/
def simplelinkMaxSendMtu : Nat := 1472

/-- The callbacks `_set_mbedtls_bio` installs for a protocol; `none` where it
leaves those that are there. -/
def bioFor : Protocol → Option Bio
  | .dtlsIp4 => some .udp
  | .tlsIp4 => some .tcp
  | _ => none

/-- `_set_mbedtls_bio`.  The protocol it looks at is the one stored in the
context. -/
def setMbedtlsBio (ctx : NetworkCtx) : Int × NetworkCtx :=
  match ctx.sslContext with
  | none => (uisoNetworkNullCtx, ctx)
  | some ssl =>
      let bio :=
        match bioFor ctx.protocol with
        | some bio => some bio
        | none => ssl.bio
      (uisoNetworkOk, { ctx with sslContext := some ⟨bio, simplelinkMaxSendMtu⟩ })

/-- The `switch` of `uiso_create_network_connection`. -/
def chooseFns (proto : Protocol) (ctx : NetworkCtx) : NetworkCtx :=
  match proto with
  | .udpIp4 =>
      { ctx with
        readFn := some .recvBioUdp, sendFn := some .sendUdp, closeFn := some .networkClose }
  | .tcpIp4 =>
      { ctx with
        readFn := some .recvBioTcp, sendFn := some .sendTcp, closeFn := some .networkClose }
  | .dtlsIp4 =>
      { ctx with readFn := some .readDtls, sendFn := some .sendDtls, closeFn := none }
  | .tlsIp4 =>
      { ctx with readFn := some .readDtls, sendFn := some .sendDtls, closeFn := none }
  | _ => ctx

/-- The `switch` of `_network_connect`: socket type and protocol. -/
def socketType : Protocol → Int × Int
  | .dtlsIp4 => (sockDgram, ipprotoUdp)
  | .tlsIp4 => (sockStream, ipprotoTcp)
  | .udpIp4 => (sockDgram, ipprotoUdp)
  | .tcpIp4 => (sockStream, ipprotoTcp)
  | _ => (0, 0)

/-- The address `_network_connect` resolves: the driver writes the host's
address when its status is 0. -/
def resolvedPeer (net : StackAnswers) (port : String) : SockAddrIn where
  family := slAfInet
  port := portOf port
  addr := rev (if net.dnsStatus = 0 then net.dnsAddr else 0)

/-- Name resolution. -/
def resolvePeer (net : StackAnswers) (args : ConnectArgs) (w : World) : World :=
  let w := w.setCtx fun ctx => { ctx with peer := ⟨0, 0, 0⟩ }
  let w := w.emit (.dnsGetHostByName args.host net.dnsStatus)
  if net.dnsStatus < 0 then w
  else
    let peer := resolvedPeer net args.port
    (w.setCtx fun ctx => { ctx with peer := peer, peerLen := sockAddrInSize }).emit
      (.peerResolved peer)

/-- Opening the socket. -/
def openSocket (net : StackAnswers) (proto : Protocol) (w : World) : World :=
  let w := w.setCtx fun ctx => { ctx with protocol := proto, sd := net.socket }
  w.emit (.socket (socketType proto).1 (socketType proto).2 net.socket)

/-- Binding to the local port, if one is given. -/
def bindLocal (net : StackAnswers) (localPort : Option String) (w : World) : Int × World :=
  match localPort with
  | none => (uisoNetworkOk, w)
  | some port =>
      let addr : SockAddrIn := ⟨slAfInet, portOf port, 0⟩
      let w := w.setCtx fun ctx => { ctx with localAddr := addr, localLen := sockAddrInSize }
      let w := w.emit (.bind w.ctx.sd addr net.bind)
      (if net.bind ≠ 0 then uisoNetworkBindError else uisoNetworkOk, w)

/-- Connecting.  The test is `0 < connect(..)`. -/
def connectPeer (net : StackAnswers) (w : World) : Int × World :=
  let w := w.emit (.connect w.ctx.sd w.ctx.peer net.connect)
  if 0 < net.connect then
    let w := w.emit (.close w.ctx.sd net.close)
    (uisoNetworkConnectError, w.setCtx fun ctx => { ctx with sd := uisoNetworkInvalidSocket })
  else (uisoNetworkOk, w)

/-- `_network_connect` -/
def networkConnect (net : StackAnswers) (args : ConnectArgs) (w : World) : Int × World :=
  let w := resolvePeer net args w
  if net.dnsStatus < 0 then (uisoNetworkDnsError, w)
  else
    let w := openSocket net args.proto w
    if net.socket < 0 then (uisoNetworkSocketError, w)
    else
      let w := w.emit (.setNonblocking w.ctx.sd)
      let bound := bindLocal net args.localPort w
      if bound.1 = uisoNetworkOk then connectPeer net bound.2 else bound

/-- `uiso_create_network_connection` up to the handshake. -/
def prepareConnection (net : StackAnswers) (args : ConnectArgs) (w : World) : Int × World :=
  let bio := if args.proto.secure then setMbedtlsBio w.ctx else (uisoNetworkOk, w.ctx)
  let w := w.setCtx fun _ => chooseFns args.proto bio.2
  if 0 ≤ bio.1 then networkConnect net args w else (bio.1, w)

/-- The handshake loop, for secure protocols. -/
def performHandshake (proto : Protocol) (ret : Int) : Prog World Int :=
  if 0 ≤ ret ∧ proto.secure = true then sslRetry wantsIo .handshake else pure ret

/-- The time stamps at the end of `uiso_create_network_connection`. -/
def World.stamp (net : StackAnswers) (w : World) : World :=
  w.setCtx fun ctx => { ctx with lastRecvTime := net.time, lastSendTime := net.time }

/-- `uiso_create_network_connection` -/
def uisoCreateNetworkConnection (net : StackAnswers) (args : ConnectArgs) : Prog World Int := do
  let ret ← Prog.lift (prepareConnection net args)
  let ret ← performHandshake args.proto ret
  Prog.modify fun w => if 0 ≤ ret then w.stamp net else w
  return ret

/-! ## Closing -/

/-- `_network_close` -/
def networkClose (net : StackAnswers) (w : World) : Int × World :=
  if w.ctx.sd ≤ 0 then (uisoNetworkNegativeSd, w)
  else
    let w := w.emit (.close w.ctx.sd net.close)
    (net.close, w.setCtx fun ctx => { ctx with sd := uisoNetworkInvalidSocket })

/-- The close notification, for secure protocols. -/
def notifyClose (secure : Bool) : Prog World Int :=
  if secure = true then sslRetry wantsIo .closeNotify else pure uisoNetworkOk

/-- `uiso_close_network_connection` -/
def uisoCloseNetworkConnection (net : StackAnswers) : Prog World Int := do
  let secure ← Prog.lift fun w => (w.ctx.protocol.secure, w)
  let ret ← notifyClose secure
  let closed ← Prog.lift (networkClose net)
  return if ret = uisoNetworkOk then closed else ret

/-- `uiso_network_register_ssl_context`, with a context that is not `NULL`. -/
def uisoNetworkRegisterSslContext (ssl : SslContext) : Prog World Int := do
  Prog.modify fun w => w.setCtx fun ctx => { ctx with sslContext := some ssl }
  return uisoNetworkOk

/-! ## The codes are negative -/

theorem uisoNetworkOk_eq : uisoNetworkOk = 0 := rfl

/-- The codes of the stages of a connection. -/
def connectionErrors : List Int :=
  [uisoNetworkNullCtx, uisoNetworkDnsError, uisoNetworkSocketError, uisoNetworkBindError,
    uisoNetworkConnectError]

theorem connectionError_neg {code : Int} (h : code ∈ connectionErrors) : code < 0 := by
  have hall : ∀ code ∈ connectionErrors, code < 0 := by decide
  exact hall code h

/-! ## What `_network_connect` returns and leaves behind -/

/-- The bind, when there is one, reported success. -/
def BindOk (net : StackAnswers) (localPort : Option String) : Prop :=
  localPort.isSome = true → net.bind = 0

instance (net : StackAnswers) (localPort : Option String) : Decidable (BindOk net localPort) :=
  inferInstanceAs (Decidable (_ → _))

theorem bindLocal_ret (net : StackAnswers) (localPort : Option String) (w : World) :
    (bindLocal net localPort w).1 = uisoNetworkOk ↔ BindOk net localPort := by
  cases localPort with
  | none => simp [bindLocal, BindOk]
  | some port =>
      have hne : uisoNetworkBindError ≠ uisoNetworkOk := by decide
      by_cases hbind : net.bind = 0 <;> simp [bindLocal, BindOk, hbind, hne]

theorem bindLocal_neg (net : StackAnswers) (localPort : Option String) (w : World)
    (h : ¬ BindOk net localPort) : (bindLocal net localPort w).1 < 0 := by
  cases localPort with
  | none => simp [BindOk] at h
  | some port =>
      have hbind : net.bind ≠ 0 := by simpa [BindOk] using h
      simpa [bindLocal, hbind] using connectionError_neg (by decide : uisoNetworkBindError ∈ _)

/-- `_network_connect` succeeds precisely if its four calls pass the tests it
makes.  The one on `connect` accepts every negative result. -/
theorem networkConnect_ret (net : StackAnswers) (args : ConnectArgs) (w : World) :
    0 ≤ (networkConnect net args w).1 ↔
      0 ≤ net.dnsStatus ∧ 0 ≤ net.socket ∧ BindOk net args.localPort ∧ net.connect ≤ 0 := by
  unfold networkConnect
  by_cases hdns : net.dnsStatus < 0
  · have := connectionError_neg (by decide : uisoNetworkDnsError ∈ _)
    simp only [hdns, if_true]
    omega
  by_cases hsocket : net.socket < 0
  · have := connectionError_neg (by decide : uisoNetworkSocketError ∈ _)
    simp only [hdns, hsocket, if_false, if_true]
    omega
  rw [Int.not_lt] at hdns hsocket
  simp only [Int.not_lt.mpr hdns, Int.not_lt.mpr hsocket, if_false, bindLocal_ret, hdns, hsocket,
    true_and]
  by_cases hbind : BindOk net args.localPort
  · by_cases hconnect : 0 < net.connect
    · simp only [hbind, hconnect, if_true, connectPeer, true_and]
      have := connectionError_neg (by decide : uisoNetworkConnectError ∈ _)
      omega
    · simp [hbind, hconnect, connectPeer, uisoNetworkOk_eq, Int.not_lt.mp hconnect]
  · simp only [hbind, if_false, false_and, iff_false, Int.not_le]
    exact bindLocal_neg net args.localPort _ hbind

/-- Two contexts agree in what `_network_connect` never writes. -/
structure SameSetup (c c' : NetworkCtx) : Prop where
  sslContext : c'.sslContext = c.sslContext
  readFn : c'.readFn = c.readFn
  sendFn : c'.sendFn = c.sendFn

theorem SameSetup.refl (c : NetworkCtx) : SameSetup c c := ⟨rfl, rfl, rfl⟩

theorem SameSetup.trans {c c' c'' : NetworkCtx} (h : SameSetup c c') (h' : SameSetup c' c'') :
    SameSetup c c'' :=
  ⟨h'.sslContext.trans h.sslContext, h'.readFn.trans h.readFn, h'.sendFn.trans h.sendFn⟩

theorem resolvePeer_setup (net : StackAnswers) (args : ConnectArgs) (w : World) :
    SameSetup w.ctx (resolvePeer net args w).ctx := by
  unfold resolvePeer
  by_cases h : net.dnsStatus < 0
  · simp only [h, if_true]
    exact ⟨rfl, rfl, rfl⟩
  · simp only [h, if_false]
    exact ⟨rfl, rfl, rfl⟩

theorem bindLocal_setup (net : StackAnswers) (localPort : Option String) (w : World) :
    SameSetup w.ctx (bindLocal net localPort w).2.ctx := by
  cases localPort with
  | none => exact SameSetup.refl _
  | some port => exact ⟨rfl, rfl, rfl⟩

theorem connectPeer_setup (net : StackAnswers) (w : World) :
    SameSetup w.ctx (connectPeer net w).2.ctx := by
  unfold connectPeer
  by_cases h : 0 < net.connect
  · simp only [h, if_true]
    exact ⟨rfl, rfl, rfl⟩
  · simp only [h, if_false]
    exact SameSetup.refl _

/-- What every stage of `_network_connect` keeps holds at its end. -/
theorem networkConnect_keeps {I : World → Prop} {net : StackAnswers} {args : ConnectArgs}
    {w : World} (hresolve : I (resolvePeer net args w))
    (hopen : ∀ w, I w → I (openSocket net args.proto w))
    (hoption : ∀ w, I w → I (w.emit (.setNonblocking w.ctx.sd)))
    (hbind : ∀ w, I w → I (bindLocal net args.localPort w).2)
    (hconnect : ∀ w, I w → I (connectPeer net w).2) : I (networkConnect net args w).2 := by
  unfold networkConnect
  by_cases hdns : net.dnsStatus < 0
  · simpa only [hdns, if_true] using hresolve
  by_cases hsocket : net.socket < 0
  · simpa only [hdns, hsocket, if_false, if_true] using hopen _ hresolve
  simp only [hdns, hsocket, if_false]
  have hbound := hbind _ (hoption _ (hopen _ hresolve))
  split
  · exact hconnect _ hbound
  · exact hbound

theorem networkConnect_setup (net : StackAnswers) (args : ConnectArgs) (w : World) :
    SameSetup w.ctx (networkConnect net args w).2.ctx := by
  refine networkConnect_keeps (I := fun w' => SameSetup w.ctx w'.ctx) ?_ ?_ ?_ ?_ ?_
  · exact resolvePeer_setup net args w
  · exact fun _ h => h.trans ⟨rfl, rfl, rfl⟩
  · exact fun _ h => h
  · exact fun w' h => h.trans (bindLocal_setup net args.localPort w')
  · exact fun w' h => h.trans (connectPeer_setup net w')

/-! ## What `uiso_create_network_connection` does before the handshake -/

/-- `_set_mbedtls_bio` fails only without an ssl context. -/
theorem setMbedtlsBio_ret (ctx : NetworkCtx) :
    0 ≤ (setMbedtlsBio ctx).1 ↔ ctx.sslContext.isSome = true := by
  unfold setMbedtlsBio
  cases ctx.sslContext with
  | none =>
      have := connectionError_neg (by decide : uisoNetworkNullCtx ∈ _)
      simp only [Option.isSome_none, Bool.false_eq_true, iff_false]
      omega
  | some ssl => simp [uisoNetworkOk_eq]

/-- The callbacks after `_set_mbedtls_bio`: those for the protocol stored in the
context, or the ones that were there. -/
theorem setMbedtlsBio_bio (ctx : NetworkCtx) (h : ctx.sslContext.isSome = true) :
    (setMbedtlsBio ctx).2.bio = (bioFor ctx.protocol).or ctx.bio := by
  obtain ⟨ssl, hssl⟩ := Option.isSome_iff_exists.mp h
  unfold setMbedtlsBio NetworkCtx.bio
  rw [hssl]
  cases bioFor ctx.protocol <;> rfl

theorem chooseFns_sslContext (proto : Protocol) (ctx : NetworkCtx) :
    (chooseFns proto ctx).sslContext = ctx.sslContext := by
  cases proto <;> rfl

/-- An ssl context is there when the protocol asks for one. -/
def SslReady (args : ConnectArgs) (ctx : NetworkCtx) : Prop :=
  args.proto.secure = true → ctx.sslContext.isSome = true

instance (args : ConnectArgs) (ctx : NetworkCtx) : Decidable (SslReady args ctx) :=
  inferInstanceAs (Decidable (_ → _))

/-- The context as `_network_connect` gets it. -/
def preparedCtx (args : ConnectArgs) (ctx : NetworkCtx) : NetworkCtx :=
  chooseFns args.proto (if args.proto.secure then (setMbedtlsBio ctx).2 else ctx)

/-- Without an ssl context for a secure protocol the call ends at once;
otherwise it is `_network_connect` on the prepared context. -/
theorem prepareConnection_of_ready {net : StackAnswers} {args : ConnectArgs} {w : World}
    (h : SslReady args w.ctx) :
    prepareConnection net args w =
      networkConnect net args (w.setCtx fun _ => preparedCtx args w.ctx) := by
  unfold prepareConnection preparedCtx
  cases hsec : args.proto.secure with
  | false => simp [uisoNetworkOk_eq]
  | true => simp [(setMbedtlsBio_ret w.ctx).mpr (h hsec)]

theorem prepareConnection_of_not_ready {net : StackAnswers} {args : ConnectArgs} {w : World}
    (h : ¬ SslReady args w.ctx) :
    prepareConnection net args w =
      (uisoNetworkNullCtx, w.setCtx fun _ => preparedCtx args w.ctx) := by
  obtain ⟨hsec, hssl⟩ := Classical.not_imp.mp h
  have hnone : w.ctx.sslContext = none := by simpa using hssl
  have hneg : ¬ 0 ≤ uisoNetworkNullCtx := by decide
  unfold prepareConnection preparedCtx
  simp [hsec, setMbedtlsBio, hnone, hneg]

/-- What `uiso_create_network_connection` tests before the handshake. -/
structure Reaches (net : StackAnswers) (args : ConnectArgs) (ctx : NetworkCtx) : Prop where
  ssl : SslReady args ctx
  dns : 0 ≤ net.dnsStatus
  socket : 0 ≤ net.socket
  bind : BindOk net args.localPort
  connect : net.connect ≤ 0

theorem reaches_iff (net : StackAnswers) (args : ConnectArgs) (ctx : NetworkCtx) :
    Reaches net args ctx ↔ SslReady args ctx ∧ 0 ≤ net.dnsStatus ∧ 0 ≤ net.socket ∧
      BindOk net args.localPort ∧ net.connect ≤ 0 :=
  ⟨fun h => ⟨h.ssl, h.dns, h.socket, h.bind, h.connect⟩,
    fun ⟨h₁, h₂, h₃, h₄, h₅⟩ => ⟨h₁, h₂, h₃, h₄, h₅⟩⟩

instance (net : StackAnswers) (args : ConnectArgs) (ctx : NetworkCtx) :
    Decidable (Reaches net args ctx) :=
  decidable_of_iff _ (reaches_iff net args ctx).symm

theorem prepareConnection_ret (net : StackAnswers) (args : ConnectArgs) (w : World) :
    0 ≤ (prepareConnection net args w).1 ↔ Reaches net args w.ctx := by
  rw [reaches_iff]
  by_cases h : SslReady args w.ctx
  · rw [prepareConnection_of_ready h, networkConnect_ret]
    simp [h]
  · rw [prepareConnection_of_not_ready h]
    have := connectionError_neg (by decide : uisoNetworkNullCtx ∈ _)
    simp only [h, false_and, iff_false]
    omega

/-- The setup that is in place when the handshake begins. -/
theorem prepareConnection_setup (net : StackAnswers) {args : ConnectArgs} {w : World}
    (h : SslReady args w.ctx) :
    SameSetup (preparedCtx args w.ctx) (prepareConnection net args w).2.ctx := by
  rw [prepareConnection_of_ready h]
  exact networkConnect_setup net args (w.setCtx fun _ => preparedCtx args w.ctx)

/-- The callbacks that are installed when the handshake begins. -/
theorem prepareConnection_bio (net : StackAnswers) {args : ConnectArgs} {w : World}
    (hsec : args.proto.secure = true) (h : SslReady args w.ctx) :
    (prepareConnection net args w).2.ctx.bio = (bioFor w.ctx.protocol).or w.ctx.bio := by
  rw [← setMbedtlsBio_bio w.ctx (h hsec)]
  unfold NetworkCtx.bio
  rw [(prepareConnection_setup net h).sslContext]
  simp [preparedCtx, hsec, chooseFns_sslContext]

/-! ## The whole call -/

/-- A property that no call destroys holds at the end of
`uiso_create_network_connection` if it holds when the handshake begins. -/
theorem triple_create {I : World → Prop} (hI : KeptByCall I .handshake) (net : StackAnswers)
    (args : ConnectArgs) (hstamp : ∀ w, I w → I (w.stamp net)) :
    Prog.Triple (fun w => I (prepareConnection net args w).2)
      (uisoCreateNetworkConnection net args) (fun _ => I) I := by
  unfold uisoCreateNetworkConnection
  refine Prog.triple_bind (Q := fun _ => I) (Prog.triple_lift fun _ hw => hw) fun ret => ?_
  refine Prog.keeps_bind ?_ fun ret => ?_
  · exact Prog.keeps_ite (fun _ => hI.keeps_sslRetry _) fun _ => Prog.keeps_pure _
  refine Prog.keeps_bind (Prog.keeps_modify fun w hw => ?_) fun _ => Prog.keeps_pure _
  split
  · exact hstamp w hw
  · exact hw

/-- The same for `uiso_close_network_connection`, from `_network_close` on. -/
theorem triple_close {I : World → Prop} {Q : World → Prop} (hI : KeptByCall I .closeNotify)
    (net : StackAnswers) (hclose : ∀ w, I w → Q (networkClose net w).2) :
    Prog.Triple I (uisoCloseNetworkConnection net) (fun _ => Q) I := by
  unfold uisoCloseNetworkConnection
  refine Prog.triple_bind (Q := fun _ => I) (Prog.triple_lift fun _ hw => hw) fun secure => ?_
  refine Prog.triple_bind (Q := fun _ => I) ?_ fun ret => ?_
  · exact Prog.keeps_ite (fun _ => hI.keeps_sslRetry _) fun _ => Prog.keeps_pure _
  · refine Prog.triple_bind (Q := fun _ => Q) (Prog.triple_lift hclose) fun closed => ?_
    exact Prog.triple_pure fun _ hw => hw

/-- Answers of a stack in which everything works, for the runs on fixed inputs
in the modules that follow. -/
def goodStack (socket : Int) : StackAnswers where
  dnsStatus := 0
  dnsAddr := 0x0A000001
  socket := socket
  bind := 0
  connect := 0
  close := 0
  time := 1000

end Uiso.Network
