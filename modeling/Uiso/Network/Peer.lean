/-
  Network/Peer.lean --- where the datagrams of a context go.

  `ctx->peer` is written by `_network_connect` with the address it resolved, read
  by every `sl_SendTo`, and passed to every `sl_RecvFrom` as the place for the
  source of the datagram.  So the destination of a datagram is the source of the
  last one received since the address was resolved.  The invariant says this
  of the trace; from it the destinations can be read off for any run.
-/
import Uiso.Network.Transfer
import Uiso.Foundation.Trace

set_option autoImplicit false

namespace Uiso.Network

open Uiso.Foundation

/-! ## Reading the trace -/

/-- What an event says about the address resolved by `_network_connect`: a name
resolution ends the validity of the address before it. -/
def resolvedBy : NetEvent → Option (Option SockAddrIn)
  | .dnsGetHostByName _ _ => some none
  | .peerResolved peer => some (some peer)
  | _ => none

/-- What an event says about the source of the datagrams received since then. -/
def heardBy : NetEvent → Option (Option SockAddrIn)
  | .peerResolved _ => some none
  | .recvFrom _ _ source result => if 0 ≤ result then some (some source) else none
  | _ => none

/-- The destination of a datagram. -/
def sentTo : NetEvent → Option SockAddrIn
  | .sendTo _ _ _ dest _ => some dest
  | _ => none

/-- The address and port the last `_network_connect` resolved. -/
def resolved (t : List NetEvent) : Option SockAddrIn := (Trace.latest resolvedBy t).join

/-- The source of the last datagram received since. -/
def heard (t : List NetEvent) : Option SockAddrIn := (Trace.latest heardBy t).join

/-- The same address and port. -/
def SockAddrIn.SameEndpoint (a b : SockAddrIn) : Prop := a.addr = b.addr ∧ a.port = b.port

instance (a b : SockAddrIn) : Decidable (a.SameEndpoint b) :=
  inferInstanceAs (Decidable (_ ∧ _))

theorem SockAddrIn.SameEndpoint.rfl (a : SockAddrIn) : a.SameEndpoint a := ⟨Eq.refl _, Eq.refl _⟩

/-- A datagram goes to the peer that was resolved. -/
def SentToPeer (before : List NetEvent) (e : NetEvent) : Prop :=
  ∀ dest ∈ sentTo e, ∀ peer ∈ resolved before, dest.SameEndpoint peer

/-- When a datagram is sent, the last one received came from the peer that was
resolved. -/
def HeardFromPeer (before : List NetEvent) (e : NetEvent) : Prop :=
  sentTo e ≠ none → ∀ peer ∈ resolved before, ∀ source ∈ heard before, source.SameEndpoint peer

instance (before : List NetEvent) (e : NetEvent) : Decidable (SentToPeer before e) :=
  inferInstanceAs (Decidable (∀ dest ∈ sentTo e, ∀ peer ∈ resolved before, dest.SameEndpoint peer))

instance (before : List NetEvent) (e : NetEvent) : Decidable (HeardFromPeer before e) :=
  inferInstanceAs (Decidable (_ → ∀ peer ∈ resolved before,
    ∀ source ∈ heard before, source.SameEndpoint peer))

/-! ## The invariant -/

/-- `ctx->peer` is the source of the last datagram received, or the resolved
address if there is none; and up to now the two readings of the trace agree. -/
structure PeerInv (w : World) : Prop where
  peer : ∀ p, resolved w.trace = some p → w.ctx.peer = (heard w.trace).getD p
  agree : Trace.Each SentToPeer w.trace ↔ Trace.Each HeardFromPeer w.trace

theorem resolved_concat (t : List NetEvent) (e : NetEvent) (h : resolvedBy e = none) :
    resolved (t ++ [e]) = resolved t := by
  simp [resolved, h]

theorem heard_concat (t : List NetEvent) (e : NetEvent) (h : heardBy e = none) :
    heard (t ++ [e]) = heard t := by
  simp [heard, h]

/-- An event other than a send adds nothing to either reading. -/
theorem agree_concat {t : List NetEvent} {e : NetEvent} (h : sentTo e = none)
    (hagree : Trace.Each SentToPeer t ↔ Trace.Each HeardFromPeer t) :
    Trace.Each SentToPeer (t ++ [e]) ↔ Trace.Each HeardFromPeer (t ++ [e]) := by
  have hsent : SentToPeer t e := by simp [SentToPeer, h]
  have hheard : HeardFromPeer t e := by simp [HeardFromPeer, h]
  rw [Trace.each_concat, Trace.each_concat, hagree]
  simp [hsent, hheard]

namespace PeerInv

variable {w : World}

/-- Nothing but resolving, sending and receiving datagrams matters. -/
theorem emit (h : PeerInv w) {e : NetEvent} (hresolved : resolvedBy e = none)
    (hheard : heardBy e = none) (hsent : sentTo e = none) : PeerInv (w.emit e) where
  peer := by
    intro p hp
    rw [World.emit_trace, resolved_concat _ _ hresolved] at hp
    rw [World.emit_trace, heard_concat _ _ hheard]
    exact h.peer p hp
  agree := agree_concat hsent h.agree

/-- The context may change in everything else. -/
theorem setCtx (h : PeerInv w) {f : NetworkCtx → NetworkCtx} (hf : (f w.ctx).peer = w.ctx.peer) :
    PeerInv (w.setCtx f) where
  peer := fun p hp => hf.trans (h.peer p hp)
  agree := h.agree

theorem sendBioUdp (h : PeerInv w) (payload : Payload) (length : Nat) (result : Int) :
    PeerInv (Network.sendBioUdp w payload length result) where
  peer := by
    intro p hp
    rw [Network.sendBioUdp, World.emit_trace, resolved_concat _ _ rfl] at hp
    rw [Network.sendBioUdp, World.emit_trace, heard_concat _ _ rfl]
    exact h.peer p hp
  agree := by
    rw [Network.sendBioUdp, World.emit_trace, Trace.each_concat, Trace.each_concat]
    refine and_congr h.agree ?_
    -- the destination is `ctx->peer`, which the invariant describes
    constructor
    · intro hsent _ p hp source hsource
      have hto := hsent w.ctx.peer rfl p hp
      rwa [h.peer p hp, Option.mem_def.mp hsource, Option.getD_some] at hto
    · intro hheard dest hdest p hp
      obtain rfl : w.ctx.peer = dest := by simpa [sentTo] using hdest
      rw [h.peer p hp]
      cases hsource : heard w.trace with
      | none => exact SockAddrIn.SameEndpoint.rfl p
      | some source => exact hheard (by simp [sentTo]) p hp source hsource

theorem recvBioUdp (h : PeerInv w) (length : Nat) (source : SockAddrIn) (result : Int) :
    PeerInv (Network.recvBioUdp w length source result) where
  peer := by
    intro p hp
    rw [Network.recvBioUdp, World.emit_trace, World.setCtx_trace,
      resolved_concat _ _ rfl] at hp
    by_cases hresult : 0 ≤ result
    · simp [Network.recvBioUdp, heard, heardBy, hresult]
    · have hheard := heard_concat w.trace (.recvFrom w.ctx.sd (toI16 length) source result)
        (by simp [heardBy, hresult])
      simpa [Network.recvBioUdp, hresult, hheard] using h.peer p hp
  agree := agree_concat rfl h.agree

/-- Traffic keeps the invariant. -/
theorem keptByTraffic : KeptByTraffic PeerInv where
  script := fun _ _ h => ⟨h.peer, h.agree⟩
  sendBioUdp := fun _ payload length result h => h.sendBioUdp payload length result
  sendBioTcp := fun _ _ _ _ h => h.emit rfl rfl rfl
  recvBioUdp := fun _ length source result h => h.recvBioUdp length source result
  recvBioTcp := fun _ _ _ h => h.emit rfl rfl rfl
  sslCall := fun _ _ h => h.emit rfl rfl rfl
  sslReturn := fun _ _ _ h => h.emit rfl rfl rfl
  sent := fun _ _ h => h.setCtx rfl

/-! ## Connecting -/

theorem resolvePeer (h : PeerInv w) (net : StackAnswers) (args : ConnectArgs) :
    PeerInv (Network.resolvePeer net args w) := by
  unfold Network.resolvePeer
  by_cases hdns : net.dnsStatus < 0
  · simp only [hdns, if_true]
    exact ⟨by simp [resolved, resolvedBy], agree_concat rfl h.agree⟩
  · simp only [hdns, if_false]
    refine ⟨?_, agree_concat rfl (agree_concat rfl h.agree)⟩
    intro p hp
    rw [World.emit_trace, resolved, Trace.latest_concat] at hp
    obtain rfl : resolvedPeer net args.port = p := Option.some.inj hp
    rw [World.emit_trace, heard, Trace.latest_concat]
    rfl

theorem bindLocal (h : PeerInv w) (net : StackAnswers) (localPort : Option String) :
    PeerInv (Network.bindLocal net localPort w).2 := by
  cases localPort with
  | none => exact h
  | some port => exact (h.setCtx rfl).emit rfl rfl rfl

theorem connectPeer (h : PeerInv w) (net : StackAnswers) :
    PeerInv (Network.connectPeer net w).2 := by
  have hconnect := h.emit (e := .connect w.ctx.sd w.ctx.peer net.connect) rfl rfl rfl
  unfold Network.connectPeer
  by_cases hpos : 0 < net.connect
  · simp only [hpos, if_true]
    exact (hconnect.emit rfl rfl rfl).setCtx rfl
  · simpa only [hpos, if_false] using hconnect

theorem networkConnect (h : PeerInv w) (net : StackAnswers) (args : ConnectArgs) :
    PeerInv (Network.networkConnect net args w).2 := by
  refine networkConnect_keeps (I := PeerInv) (h.resolvePeer net args) ?_ ?_ ?_ ?_
  · exact fun _ h => (h.setCtx rfl).emit rfl rfl rfl
  · exact fun _ h => h.emit rfl rfl rfl
  · exact fun _ h => h.bindLocal net args.localPort
  · exact fun _ h => h.connectPeer net

theorem prepareConnection (h : PeerInv w) (net : StackAnswers) (args : ConnectArgs) :
    PeerInv (Network.prepareConnection net args w).2 := by
  have hpeer : (preparedCtx args w.ctx).peer = w.ctx.peer := by
    unfold preparedCtx setMbedtlsBio
    cases args.proto.secure <;> cases w.ctx.sslContext <;> cases args.proto <;> rfl
  by_cases hready : SslReady args w.ctx
  · rw [prepareConnection_of_ready hready]
    exact (h.setCtx hpeer).networkConnect net args
  · rw [prepareConnection_of_not_ready hready]
    exact h.setCtx hpeer

theorem networkClose (h : PeerInv w) (net : StackAnswers) :
    PeerInv (Network.networkClose net w).2 := by
  have hclose := h.emit (e := .close w.ctx.sd net.close) rfl rfl rfl
  unfold Network.networkClose
  by_cases hsd : w.ctx.sd ≤ 0
  · simpa only [hsd, if_true] using h
  · simp only [hsd, if_false]
    exact hclose.setCtx rfl

/-- Every call keeps the invariant, whether it returns or not. -/
theorem keeps_prog (call : Call) : Prog.Keeps PeerInv call.prog := by
  cases call with
  | register ssl =>
      exact Prog.keeps_bind (Prog.keeps_modify fun _ h => h.setCtx rfl) fun _ => Prog.keeps_pure _
  | create net args =>
      refine (triple_create (keptByTraffic.calls _) net args fun _ h => h.setCtx rfl).mono ?_ ?_ ?_
      · exact fun _ h => h.prepareConnection net args
      · exact fun _ _ h => h
      · exact fun _ h => h
  | close net => exact triple_close (keptByTraffic.calls _) net fun _ h => h.networkClose net
  | read length => exact keptByTraffic.keeps_uisoNetworkRead length
  | send now later length => exact keptByTraffic.keeps_uisoNetworkSend now later length

theorem step {l l' : Link} {req : Request} (h : PeerInv l.world) (hstep : l.step req = some l') :
    PeerInv l'.world :=
  Link.step_keeps keptByTraffic.script (keeps_prog req.call) h hstep

end PeerInv

/-! ## The result -/

/-- In every state of every run on a context, all datagrams so far went to the
peer resolved at the time precisely if each was sent while the last datagram
received, if any, had come from that peer. -/
theorem sent_to_peer_iff_heard_from_peer (ctx : NetworkCtx) (reqs : List Request) :
    link.Always
      (fun l => Trace.Each SentToPeer l.world.trace ↔ Trace.Each HeardFromPeer l.world.trace)
      (Link.start ctx) reqs := by
  have hstart : PeerInv (Link.start ctx).world := ⟨by simp [Link.start, resolved], Iff.rfl⟩
  exact Machine.always_of_invariant (I := fun l : Link => PeerInv l.world)
    (fun _ _ _ h hstep => PeerInv.step h hstep) (fun _ h => h.agree) hstart

/-- The address of another host on the network. -/
def stranger : SockAddrIn := ⟨slAfInet, 0x1234, 0x0200000A⟩

/-- A UDP context connects, one datagram arrives from a stranger, and the next
send goes there. -/
theorem datagram_from_stranger_redirects_sends :
    ¬ ∀ (ctx : NetworkCtx) (reqs : List Request),
      link.Always (fun l => Trace.Each SentToPeer l.world.trace) (Link.start ctx) reqs := by
  intro h
  have hrun := h initializeNetworkCtx
    [⟨.create (goodStack 1) ⟨"coap.me", "5683", none, .udpIp4⟩, []⟩,
      ⟨.read 64, [{ code := 4, source := stranger }]⟩,
      ⟨.send 1001 1001 4, [{ code := 4 }]⟩]
  revert hrun
  decide

end Uiso.Network
