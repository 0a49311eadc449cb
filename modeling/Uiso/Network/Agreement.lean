/-
  Network/Agreement.lean --- when the callbacks, the socket and the functions of
  a secure connection belong to one protocol.

  `uiso_create_network_connection` makes three choices.  The socket type and the
  read and send functions come from the `proto` argument.  The BIO callbacks come
  from `ctx->protocol`, which `_network_connect` writes later in the same call:
  what is installed when the handshake begins is what the previous call on the
  context asked for.
-/
import Uiso.Network.Transfer
import Uiso.Foundation.Trace

set_option autoImplicit false

namespace Uiso.Network

open Uiso.Foundation

/-! ## What belongs to a protocol -/

/-- The transport under a secure protocol. -/
def transportOf : Protocol → Option Bio
  | .dtlsIp4 | .dtlsIp6 => some .udp
  | .tlsIp4 | .tlsIp6 => some .tcp
  | _ => none

/-- The socket type of a transport. -/
def Bio.socketType : Bio → Int
  | .udp => sockDgram
  | .tcp => sockStream

/-- The type of the socket opened last. -/
def openedType : List NetEvent → Option Int :=
  Trace.latest fun
    | .socket type _ _ => some type
    | _ => none

/-- The callbacks, the socket and the functions in place are those of a
transport. -/
structure InPlace (transport : Bio) (w : World) : Prop where
  bio : w.ctx.bio = some transport
  socket : openedType w.trace = some transport.socketType
  readFn : w.ctx.readFn = some .readDtls
  sendFn : w.ctx.sendFn = some .sendDtls

theorem inPlace_iff (transport : Bio) (w : World) :
    InPlace transport w ↔ w.ctx.bio = some transport ∧
      openedType w.trace = some transport.socketType ∧
      w.ctx.readFn = some .readDtls ∧ w.ctx.sendFn = some .sendDtls :=
  ⟨fun h => ⟨h.bio, h.socket, h.readFn, h.sendFn⟩, fun ⟨h₁, h₂, h₃, h₄⟩ => ⟨h₁, h₂, h₃, h₄⟩⟩

instance (transport : Bio) (w : World) : Decidable (InPlace transport w) :=
  decidable_of_iff _ (inPlace_iff transport w).symm

/-- Everything in place belongs to `proto`. -/
def BelongsTo (proto : Protocol) (w : World) : Prop :=
  ∃ transport ∈ transportOf proto, InPlace transport w

instance (proto : Protocol) (w : World) : Decidable (BelongsTo proto w) :=
  match h : transportOf proto with
  | none => .isFalse (by simp [BelongsTo, h])
  | some transport => decidable_of_iff (InPlace transport w) (by simp [BelongsTo, h])

/-- A call reaches `mbedtls_ssl_handshake`. -/
def ReachesHandshake (net : StackAnswers) (args : ConnectArgs) (ctx : NetworkCtx) : Prop :=
  args.proto.secure = true ∧ Reaches net args ctx

instance (net : StackAnswers) (args : ConnectArgs) (ctx : NetworkCtx) :
    Decidable (ReachesHandshake net args ctx) :=
  inferInstanceAs (Decidable (_ ∧ _))

/-- If the request is a connection that reaches the handshake, everything in
place at that moment belongs to the protocol passed to the call. -/
def HandshakeAgrees (l : Link) : Request → Prop
  | ⟨.create net args, script⟩ =>
      ReachesHandshake net args l.world.ctx →
        BelongsTo args.proto (prepareConnection net args { l.world with script := script }).2
  | _ => True

/-- The condition on a call: the protocol is one of the two that are supported,
and it is the one the context was last used for, or the context was last used
for another kind of protocol and the ssl context carries the right callbacks
already. -/
def CallbacksMatch (l : Link) : Request → Prop
  | ⟨.create net args, _⟩ =>
      ReachesHandshake net args l.world.ctx →
        (args.proto = .dtlsIp4 ∨ args.proto = .tlsIp4) ∧
        (l.world.ctx.protocol = args.proto ∨
          (bioFor l.world.ctx.protocol = none ∧ l.world.ctx.bio = bioFor args.proto))
  | _ => True

instance (l : Link) : ∀ req, Decidable (HandshakeAgrees l req)
  | ⟨.create _ _, _⟩ => inferInstanceAs (Decidable (_ → _))
  | ⟨.register _, _⟩ | ⟨.close _, _⟩ | ⟨.read _, _⟩ | ⟨.send _ _ _, _⟩ => .isTrue trivial

instance (l : Link) : ∀ req, Decidable (CallbacksMatch l req)
  | ⟨.create _ _, _⟩ => inferInstanceAs (Decidable (_ → _))
  | ⟨.register _, _⟩ | ⟨.close _, _⟩ | ⟨.read _, _⟩ | ⟨.send _ _ _, _⟩ => .isTrue trivial

/-! ## What is in place at the handshake -/

theorem openedType_emit (w : World) (e : NetEvent) :
    openedType (w.emit e).trace =
      Option.or (match e with
        | .socket type _ _ => some type
        | _ => none) (openedType w.trace) :=
  Trace.latest_concat _ _ _

theorem openedType_bindLocal (net : StackAnswers) (localPort : Option String) (w : World) :
    openedType (bindLocal net localPort w).2.trace = openedType w.trace := by
  cases localPort with
  | none => rfl
  | some port =>
      simp only [bindLocal]
      rw [openedType_emit]
      rfl

/-- The socket was opened with the type for `proto`. -/
theorem openedType_prepared {net : StackAnswers} {args : ConnectArgs} {w : World}
    (h : Reaches net args w.ctx) :
    openedType (prepareConnection net args w).2.trace = some (socketType args.proto).1 := by
  have hdns := h.dns
  have hsocket := h.socket
  have hconnect := h.connect
  rw [prepareConnection_of_ready h.ssl]
  simp only [networkConnect, Int.not_lt.mpr hdns, Int.not_lt.mpr hsocket, if_false,
    bindLocal_ret, h.bind, if_true, connectPeer, Int.not_lt.mpr hconnect]
  rw [openedType_emit, openedType_bindLocal, openedType_emit, openSocket, openedType_emit]
  rfl

/-- The read and send functions were chosen for `proto`. -/
theorem fns_prepared {net : StackAnswers} {args : ConnectArgs} {w : World}
    (h : Reaches net args w.ctx) (hproto : args.proto = .dtlsIp4 ∨ args.proto = .tlsIp4) :
    (prepareConnection net args w).2.ctx.readFn = some .readDtls ∧
      (prepareConnection net args w).2.ctx.sendFn = some .sendDtls := by
  have hsetup := prepareConnection_setup net h.ssl
  rw [hsetup.readFn, hsetup.sendFn, preparedCtx]
  rcases hproto with hproto | hproto <;> rw [hproto] <;> exact ⟨rfl, rfl⟩

/-- What is in place at the handshake belongs to the protocol precisely if the
protocol is supported and the callbacks found there are its own. -/
theorem belongsTo_prepared {net : StackAnswers} {args : ConnectArgs} {w : World}
    (hsec : args.proto.secure = true) (h : Reaches net args w.ctx) :
    BelongsTo args.proto (prepareConnection net args w).2 ↔
      (args.proto = .dtlsIp4 ∨ args.proto = .tlsIp4) ∧
      (bioFor w.ctx.protocol).or w.ctx.bio = bioFor args.proto := by
  have hbio := prepareConnection_bio net hsec h.ssl
  have htype := openedType_prepared h
  constructor
  · rintro ⟨transport, htransport, hplace⟩
    have hopened := hplace.socket
    rw [htype, Option.some.injEq] at hopened
    have hbio' := hbio.symm.trans hplace.bio
    revert htransport hopened hbio'
    cases args.proto <;> cases transport <;>
      simp [transportOf, socketType, Bio.socketType, bioFor, sockDgram, sockStream]
  · rintro ⟨hproto, hmatch⟩
    obtain ⟨hread, hsend⟩ := fns_prepared h hproto
    rcases hproto with hproto | hproto
    · refine ⟨.udp, by rw [hproto]; rfl, ?_, ?_, hread, hsend⟩
      · rw [hbio, hmatch, hproto]
        rfl
      · rw [htype, hproto]
        rfl
    · refine ⟨.tcp, by rw [hproto]; rfl, ?_, ?_, hread, hsend⟩
      · rw [hbio, hmatch, hproto]
        rfl
      · rw [htype, hproto]
        rfl

/-- The callbacks found at the handshake, in terms of the context before the
call. -/
theorem callbacks_match_iff {proto : Protocol} (hproto : proto = .dtlsIp4 ∨ proto = .tlsIp4)
    (ctx : NetworkCtx) :
    (bioFor ctx.protocol).or ctx.bio = bioFor proto ↔
      ctx.protocol = proto ∨ (bioFor ctx.protocol = none ∧ ctx.bio = bioFor proto) := by
  rcases hproto with rfl | rfl <;> cases ctx.protocol <;> simp [bioFor]

theorem handshakeAgrees_iff (l : Link) (req : Request) :
    HandshakeAgrees l req ↔ CallbacksMatch l req := by
  obtain ⟨call, script⟩ := req
  cases call with
  | create net args =>
      refine imp_congr_right fun hreach => ?_
      refine (belongsTo_prepared (w := { l.world with script := script }) hreach.1
        hreach.2).trans ?_
      exact and_congr_right fun hproto => callbacks_match_iff hproto l.world.ctx
  | register ssl => exact Iff.rfl
  | close net => exact Iff.rfl
  | read length => exact Iff.rfl
  | send now later length => exact Iff.rfl

/-! ## The result -/

/-- In any sequence of calls on a context, from any state of it, every handshake
agrees with its protocol precisely if every call finds matching callbacks. -/
theorem handshakes_agree_iff (l : Link) (reqs : List Request) :
    link.Guarded HandshakeAgrees l reqs ↔ link.Guarded CallbacksMatch l reqs :=
  Machine.guarded_iff handshakeAgrees_iff

/-- The first DTLS connection on an initialised context: `ctx->protocol` is
still `uiso_protocol_no_protocol`, so no callbacks are installed and the
handshake runs without a transport. -/
theorem first_dtls_handshake_without_bio :
    ¬ ∀ reqs : List Request,
      link.Guarded HandshakeAgrees (Link.start initializeNetworkCtx) reqs := by
  intro h
  have hrun := h [⟨.register .fresh, []⟩,
    ⟨.create (goodStack 1) ⟨"coap.me", "5684", none, .dtlsIp4⟩, [{ code := -0x7100 }]⟩]
  revert hrun
  decide

end Uiso.Network
