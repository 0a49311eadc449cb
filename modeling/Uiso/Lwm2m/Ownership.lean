/-
  Lwm2m/Ownership.lean --- which sockets are open, and who knows about them.

  A network context knows one socket, `ctx->sd`.  A ledger per context keeps the
  sockets that were obtained through it and not closed since; it is read off the
  `socket` and `close` events.  The two agree as long as nothing overwrites an
  open `ctx->sd`.  `_network_connect` does so without looking: after a bind error,
  after a handshake that failed, and after `lwm2m_close_connection`, which frees
  the session and leaves the socket open.

  THE OUTSIDE.  A new handle is not that of an open socket (`FreshSocket`).
  Whether `sl_Close` frees the socket when it reports an error is left open:
  everything holds for any `released` that says so for each result.
-/
import Uiso.Lwm2m.Connection
import Mathlib.Data.Finset.Basic
import Mathlib.Logic.Function.Basic

set_option autoImplicit false

namespace Uiso.Lwm2m

open Uiso.Foundation
open Uiso.Network

/-! ## The ledger -/

variable (released : Int → Bool)

/-- The open sockets after an event. -/
def hold (held : Finset Int) : NetEvent → Finset Int
  | .socket _ _ sd => if 0 < sd then insert sd held else held
  | .close sd result => if released result = true then held.erase sd else held
  | _ => held

/-- The open sockets after the events of a world, when `held` were open before. -/
def heldAfter (held : Finset Int) (w : World) : Finset Int := w.trace.foldl (hold released) held

theorem heldAfter_emit (held : Finset Int) (w : World) (e : NetEvent) :
    heldAfter released held (w.emit e) = hold released (heldAfter released held w) e := by
  simp [heldAfter]

/-- The open sockets are exactly the one in `ctx->sd`, if that is positive. -/
def OwnedBy (held : Finset Int) (sd : Int) : Prop := held = if 0 < sd then {sd} else ∅

instance (held : Finset Int) (sd : Int) : Decidable (OwnedBy held sd) :=
  inferInstanceAs (Decidable (_ = _))

/-! ## The system -/

/-- All network contexts with their ledgers, and the LWM2M sessions. -/
structure System where
  ctx : WifiSocketId → NetworkCtx
  held : WifiSocketId → Finset Int
  connList : List Nat

/-- After `initialize_socket_management`. -/
def System.init : System := ⟨fun _ => initializeNetworkCtx, fun _ => ∅, []⟩

/-- The calls that open, close and set up connections. -/
inductive Op where
  | register (id : WifiSocketId) (ssl : SslContext)
  | create (id : WifiSocketId) (net : StackAnswers) (args : ConnectArgs) (script : List Answer)
  | close (id : WifiSocketId) (net : StackAnswers) (script : List Answer)
  | connectServer (net : StackAnswers) (req : ServerRequest) (script : List Answer)
  | closeConnection (session : Nat) (script : List Answer)
  deriving DecidableEq, Repr

namespace Op

/-- The context a call works on. -/
def target : Op → WifiSocketId
  | register id _ => id
  | create id _ _ _ => id
  | close id _ _ => id
  | connectServer _ _ _ => .lwm2m
  | closeConnection _ _ => .lwm2m

/-- The answers a call gets. -/
def script : Op → List Answer
  | register _ _ => []
  | create _ _ _ script => script
  | close _ _ script => script
  | connectServer _ _ script => script
  | closeConnection _ script => script

/-- The handle `sl_Socket` would return to a call. -/
def socket : Op → Option Int
  | create _ net _ _ => some net.socket
  | connectServer net _ _ => some net.socket
  | _ => none

/-- The program of a call; it gives the list of sessions. -/
def prog (connList : List Nat) : Op → Prog World (List Nat)
  | register _ ssl => do
      let _ ← uisoNetworkRegisterSslContext ssl
      return connList
  | create _ net args _ => do
      let _ ← uisoCreateNetworkConnection net args
      return connList
  | close _ net _ => do
      let _ ← uisoCloseNetworkConnection net
      return connList
  | connectServer net req _ => do
      let result ← lwm2mConnectServer net req connList
      return result.2
  | closeConnection session _ => lwm2mCloseConnection session connList

end Op

/-- `sl_Socket` returns a negative error or a positive handle that is not the one
of an open socket. -/
def FreshSocket (s : System) (op : Op) : Prop :=
  ∀ sd ∈ op.socket, sd ≠ 0 ∧ ∀ id, sd ∉ s.held id

instance (s : System) (op : Op) : Decidable (FreshSocket s op) :=
  match h : op.socket with
  | none => .isTrue (by simp [FreshSocket, h])
  | some sd => decidable_of_iff (sd ≠ 0 ∧ ∀ id, sd ∉ s.held id) (by simp [FreshSocket, h])

/-- The system after a call on context `id` that ended in `w`. -/
def System.update (s : System) (id : WifiSocketId) (w : World) (connList : List Nat) : System where
  ctx := Function.update s.ctx id w.ctx
  held := Function.update s.held id (heldAfter released (s.held id) w)
  connList := connList

/-- The world a call runs in. -/
def System.world (s : System) (op : Op) : World := ⟨s.ctx op.target, op.script, []⟩

/-- One call that returns. -/
def System.step (s : System) (op : Op) : Option System :=
  if FreshSocket s op then
    match op.prog s.connList (s.world op) with
    | .returned connList w => some (s.update released op.target w connList)
    | .waiting _ => none
  else none

/-- All runs of these calls. -/
def system : Machine System Op := ⟨System.step released⟩

/-- Every context owns exactly the sockets obtained through it that are open. -/
def Owned (s : System) : Prop := ∀ id, OwnedBy (s.held id) (s.ctx id).sd

instance (s : System) : Decidable (Owned s) :=
  inferInstanceAs (Decidable (∀ id, OwnedBy (s.held id) (s.ctx id).sd))

/-! ## What the calls do to the ledger -/

/-- The socket a context knows and the sockets that are open. -/
structure Ledger (start : Finset Int) (sd : Int) (held : Finset Int) (w : World) : Prop where
  sd : w.ctx.sd = sd
  held : heldAfter released start w = held

variable {released} {start held : Finset Int} {sd : Int} {w : World}

theorem Ledger.emit (h : Ledger released start sd held w) {e : NetEvent}
    (he : ∀ held, hold released held e = held) : Ledger released start sd held (w.emit e) where
  sd := h.sd
  held := by rw [heldAfter_emit, h.held, he]

theorem Ledger.setCtx (h : Ledger released start sd held w) {f : NetworkCtx → NetworkCtx}
    (hf : (f w.ctx).sd = w.ctx.sd) : Ledger released start sd held (w.setCtx f) where
  sd := hf.trans h.sd
  held := h.held

theorem Ledger.bioAct (h : Ledger released start sd held w) (act : BioAct) :
    Ledger released start sd held (w.bioAct act) := by
  unfold World.bioAct
  split
  · exact h.emit fun _ => rfl
  · exact (h.setCtx rfl).emit fun _ => rfl
  · exact h.emit fun _ => rfl
  · exact h.emit fun _ => rfl
  · exact h

/-- No mbedTLS call opens or closes a socket. -/
theorem ledger_keptByCall (call : SslCall) :
    KeptByCall (Ledger released start sd held) call where
  script := fun _ _ h => ⟨h.sd, h.held⟩
  bioAct := fun _ act h => h.bioAct act
  sslCall := fun _ h => h.emit fun _ => rfl
  sslReturn := fun _ _ h => h.emit fun _ => rfl

/-- `ctx->sd` after `_network_connect`. -/
def sdAfterConnect (net : StackAnswers) (localPort : Option String) (sd : Int) : Int :=
  if net.dnsStatus < 0 then sd
  else if 0 ≤ net.socket ∧ BindOk net localPort ∧ 0 < net.connect then uisoNetworkInvalidSocket
  else net.socket

/-- The open sockets after `_network_connect`. -/
def heldAfterConnect (released : Int → Bool) (net : StackAnswers) (localPort : Option String)
    (held : Finset Int) : Finset Int :=
  if net.dnsStatus < 0 ∨ net.socket ≤ 0 then held
  else if BindOk net localPort ∧ 0 < net.connect ∧ released net.close = true then
    (insert net.socket held).erase net.socket
  else insert net.socket held

theorem Ledger.resolvePeer (h : Ledger released start sd held w) (net : StackAnswers)
    (args : ConnectArgs) : Ledger released start sd held (resolvePeer net args w) := by
  have hdns : Ledger released start sd held
      ((w.setCtx fun ctx => { ctx with peer := ⟨0, 0, 0⟩ }).emit
        (.dnsGetHostByName args.host net.dnsStatus)) :=
    (h.setCtx rfl).emit fun _ => rfl
  unfold Network.resolvePeer
  by_cases hstatus : net.dnsStatus < 0
  · simpa only [hstatus, if_true] using hdns
  · simp only [hstatus, if_false]
    exact (hdns.setCtx rfl).emit fun _ => rfl

theorem Ledger.openSocket (h : Ledger released start sd held w) (net : StackAnswers)
    (proto : Protocol) :
    Ledger released start net.socket (if 0 < net.socket then insert net.socket held else held)
      (openSocket net proto w) where
  sd := rfl
  held := by
    rw [Network.openSocket, heldAfter_emit]
    show hold released (heldAfter released start w) _ = _
    rw [h.held]
    rfl

theorem Ledger.bindLocal (h : Ledger released start sd held w) (net : StackAnswers)
    (localPort : Option String) :
    Ledger released start sd held (bindLocal net localPort w).2 := by
  cases localPort with
  | none => exact h
  | some port => exact (h.setCtx rfl).emit fun _ => rfl

theorem Ledger.connectPeer (h : Ledger released start sd held w) (net : StackAnswers) :
    Ledger released start (if 0 < net.connect then uisoNetworkInvalidSocket else sd)
      (if 0 < net.connect ∧ released net.close = true then held.erase sd else held)
      (connectPeer net w).2 := by
  have hconnect := h.emit (e := .connect w.ctx.sd w.ctx.peer net.connect) fun _ => rfl
  unfold Network.connectPeer
  by_cases hpos : 0 < net.connect
  · simp only [hpos, if_true, true_and]
    refine ⟨rfl, ?_⟩
    show heldAfter released start (World.emit _ _) = _
    rw [heldAfter_emit, hconnect.held, hconnect.sd]
    rfl
  · simpa only [hpos, if_false, false_and] using hconnect

theorem Ledger.networkConnect (h : Ledger released start sd held w) (net : StackAnswers)
    (args : ConnectArgs) (hsocket : net.socket ≠ 0) :
    Ledger released start (sdAfterConnect net args.localPort sd)
      (heldAfterConnect released net args.localPort held) (networkConnect net args w).2 := by
  have hresolve := h.resolvePeer net args
  have hopen := hresolve.openSocket net args.proto
  unfold Network.networkConnect sdAfterConnect heldAfterConnect
  by_cases hdns : net.dnsStatus < 0
  · simpa only [hdns, if_true, true_or] using hresolve
  by_cases hneg : net.socket < 0
  · have hle : net.socket ≤ 0 := by omega
    have hnot : ¬ 0 ≤ net.socket := by omega
    have hnpos : ¬ 0 < net.socket := by omega
    simpa only [hdns, hneg, hle, hnot, hnpos, if_false, if_true, or_true, false_and] using hopen
  have hpos : 0 < net.socket := by omega
  have hle : ¬ net.socket ≤ 0 := by omega
  have hnonneg : 0 ≤ net.socket := by omega
  have hoption := hopen.emit
    (e := .setNonblocking
      (Network.openSocket net args.proto (Network.resolvePeer net args w)).ctx.sd)
    fun _ => rfl
  have hbind := hoption.bindLocal net args.localPort
  simp only [hdns, hneg, hle, hnonneg, if_false, or_false, true_and, bindLocal_ret]
  simp only [hpos, if_true] at hbind
  by_cases hbound : BindOk net args.localPort
  · simp only [hbound, if_true, true_and]
    exact hbind.connectPeer net
  · simpa only [hbound, if_false, false_and] using hbind

theorem Ledger.networkClose (h : Ledger released start sd held w) (net : StackAnswers) :
    Ledger released start (if sd ≤ 0 then sd else uisoNetworkInvalidSocket)
      (if 0 < sd ∧ released net.close = true then held.erase sd else held)
      (networkClose net w).2 := by
  unfold Network.networkClose
  rw [h.sd]
  by_cases hsd : sd ≤ 0
  · have hpos : ¬ 0 < sd := by omega
    simpa only [hsd, hpos, if_true, if_false, false_and] using h
  · have hpos : 0 < sd := by omega
    simp only [hsd, hpos, if_false, true_and]
    refine ⟨rfl, ?_⟩
    show heldAfter released start (World.emit _ _) = _
    rw [heldAfter_emit, h.held]
    rfl

/-! ## The calls, as far as sockets are concerned -/

theorem preparedCtx_sd (args : ConnectArgs) (ctx : NetworkCtx) :
    (preparedCtx args ctx).sd = ctx.sd := by
  unfold preparedCtx setMbedtlsBio
  cases args.proto.secure <;> cases ctx.sslContext <;> cases args.proto <;> rfl

/-- `uiso_create_network_connection` for which the ssl context is there. -/
theorem triple_create_ledger (net : StackAnswers) (args : ConnectArgs)
    (hsocket : net.socket ≠ 0) :
    Prog.Triple (fun w => Ledger released start sd held w ∧ SslReady args w.ctx)
      (uisoCreateNetworkConnection net args)
      (fun _ => Ledger released start (sdAfterConnect net args.localPort sd)
        (heldAfterConnect released net args.localPort held)) fun _ => True := by
  refine (triple_create (ledger_keptByCall _) net args ?_).mono ?_ (fun _ _ h => h)
    fun _ _ => trivial
  · exact fun _ h => h.setCtx rfl
  · rintro w ⟨h, hready⟩
    rw [prepareConnection_of_ready hready]
    exact (h.setCtx (preparedCtx_sd args w.ctx)).networkConnect net args hsocket

/-- The same without one: the call ends before a socket is opened. -/
theorem triple_create_not_ready (net : StackAnswers) (args : ConnectArgs) :
    Prog.Triple (fun w => Ledger released start sd held w ∧ ¬ SslReady args w.ctx)
      (uisoCreateNetworkConnection net args)
      (fun _ => Ledger released start sd held) fun _ => True := by
  refine (triple_create (ledger_keptByCall _) net args ?_).mono ?_ (fun _ _ h => h)
    fun _ _ => trivial
  · exact fun _ h => h.setCtx rfl
  · rintro w ⟨h, hready⟩
    rw [prepareConnection_of_not_ready hready]
    exact h.setCtx (preparedCtx_sd args w.ctx)

theorem keeps_resetSslContext :
    Prog.Keeps (Ledger released start sd held) resetSslContext :=
  Prog.keeps_modify fun _ h => h.setCtx rfl

/-- `lwm2m_close_connection` closes no socket. -/
theorem triple_closeConnection_ledger (session : Nat) (connList : List Nat) :
    Prog.Triple (Ledger released start sd held) (lwm2mCloseConnection session connList)
      (fun _ => Ledger released start sd held) (Ledger released start sd held) := by
  refine Prog.keeps_bind (Prog.keeps_bind ?_ fun _ => ?_) fun _ => Prog.keeps_pure _
  · exact (ledger_keptByCall _).keeps_sslCall
  · exact keeps_resetSslContext

/-- The request gets as far as `uiso_create_network_connection`. -/
def ServerRequest.attempts (req : ServerRequest) : Bool :=
  (req.uri.bind parseServerUri).isSome && req.configured == 0 && req.node.isSome

theorem keeps_finishConnect (created : Option Nat × List Nat) :
    Prog.Keeps (Ledger released start sd held) (finishConnect created) := by
  obtain ⟨newConn, connList⟩ := created
  cases newConn with
  | none => exact Prog.keeps_bind keeps_resetSslContext fun _ => Prog.keeps_pure _
  | some newConn => exact Prog.keeps_pure _

/-- `lwm2m_connect_server` that attempts a connection. -/
theorem triple_connectServer_attempts (net : StackAnswers) {req : ServerRequest}
    (connList : List Nat) (hsocket : net.socket ≠ 0) (hreq : req.attempts = true) :
    Prog.Triple (Ledger released start sd held) (lwm2mConnectServer net req connList)
      (fun _ => Ledger released start (sdAfterConnect net none sd)
        (heldAfterConnect released net none held)) fun _ => True := by
  simp only [ServerRequest.attempts, Bool.and_eq_true, beq_iff_eq] at hreq
  obtain ⟨⟨huri, hconfigured⟩, hnode⟩ := hreq
  obtain ⟨⟨host, port⟩, huri⟩ := Option.isSome_iff_exists.mp huri
  obtain ⟨node, hnode⟩ := Option.isSome_iff_exists.mp hnode
  unfold lwm2mConnectServer
  rw [huri, hconfigured]
  -- the connector is set up, so the ssl context is there
  refine Prog.triple_bind (Q := fun ret w => ret = 0 ∧ Ledger released start sd held w ∧
    w.ctx.sslContext.isSome = true) ?_ fun ret => ?_
  · refine Prog.triple_bind (Q := fun _ => Ledger released start sd held) ?_ fun _ => ?_
    · exact Prog.triple_modify fun _ h => h.setCtx rfl
    · refine Prog.triple_bind (Q := fun _ w => Ledger released start sd held w ∧
        w.ctx.sslContext.isSome = true) (Prog.triple_modify fun _ h => ?_) fun _ => ?_
      · exact ⟨h.setCtx rfl, rfl⟩
      · exact Prog.triple_pure fun _ h => ⟨rfl, h⟩
  refine Prog.triple_of_fact fun hret => ?_
  refine Prog.triple_bind (Q := fun _ => Ledger released start (sdAfterConnect net none sd)
    (heldAfterConnect released net none held)) ?_ fun created => ?_
  · unfold createIfConfigured connectionCreate
    rw [if_pos hret, hnode]
    refine Prog.triple_bind ((triple_create_ledger net ⟨host, port, none, .dtlsIp4⟩ hsocket).mono
      (fun _ h => ⟨h.1, fun _ => h.2⟩) (fun _ _ h => h) fun _ h => h) fun ret => ?_
    exact Prog.triple_pure fun _ h => h
  · exact (keeps_finishConnect created).mono (fun _ h => h) (fun _ _ h => h) fun _ _ => trivial

/-- `lwm2m_connect_server` that does not. -/
theorem triple_connectServer_gives_up (net : StackAnswers) {req : ServerRequest}
    (connList : List Nat) (hreq : req.attempts = false) :
    Prog.Keeps (Ledger released start sd held) (lwm2mConnectServer net req connList) := by
  unfold lwm2mConnectServer
  cases huri : req.uri.bind parseServerUri with
  | none => exact Prog.keeps_pure _
  | some address =>
      refine Prog.triple_bind (Q := fun ret w => ret = req.configured ∧
        Ledger released start sd held w) ?_ fun ret => ?_
      · refine Prog.triple_bind (Q := fun _ => Ledger released start sd held)
          keeps_resetSslContext fun _ => ?_
        unfold registerConfigured
        split
        · rename_i hconfigured
          refine Prog.triple_bind (Q := fun _ => Ledger released start sd held)
            (Prog.triple_modify fun _ h => h.setCtx rfl) fun _ => ?_
          exact Prog.triple_pure fun _ h => ⟨hconfigured.symm, h⟩
        · exact Prog.triple_pure fun _ h => ⟨rfl, h⟩
      refine Prog.triple_of_fact fun hret => ?_
      refine Prog.keeps_bind ?_ fun created => keeps_finishConnect created
      unfold createIfConfigured connectionCreate
      split
      · rename_i hzero
        have hnode : req.node = none := by
          simpa [ServerRequest.attempts, huri, ← hret, hzero] using hreq
        rw [hnode]
        exact Prog.keeps_pure _
      · exact Prog.keeps_pure _

/-! ## Ownership after one call -/

/-- The condition under which `_network_connect` keeps the ledger: if it gets to
open a socket, the context holds none, and a socket closed after a failed
connect is released. -/
def OpensCleanly (released : Int → Bool) (net : StackAnswers) (localPort : Option String)
    (sd : Int) : Prop :=
  0 ≤ net.dnsStatus → sd ≤ 0 ∧
    (0 < net.socket → BindOk net localPort → 0 < net.connect → released net.close = true)

instance (released : Int → Bool) (net : StackAnswers) (localPort : Option String) (sd : Int) :
    Decidable (OpensCleanly released net localPort sd) :=
  inferInstanceAs (Decidable (_ → _))

theorem ownedBy_of_pos (hsd : 0 < sd) : OwnedBy held sd ↔ held = {sd} := by
  unfold OwnedBy
  rw [if_pos hsd]

theorem ownedBy_of_nonpos (hsd : sd ≤ 0) : OwnedBy held sd ↔ held = ∅ := by
  unfold OwnedBy
  rw [if_neg (by omega)]

/-- A socket that `_network_connect` does not know stays open. -/
theorem mem_heldAfterConnect (released : Int → Bool) {net : StackAnswers}
    (localPort : Option String) (hsd : sd ∈ held)
    (hne : sd ≠ net.socket) : sd ∈ heldAfterConnect released net localPort held := by
  unfold heldAfterConnect
  split
  · exact hsd
  split
  · exact Finset.mem_erase.mpr ⟨hne, Finset.mem_insert_of_mem hsd⟩
  · exact Finset.mem_insert_of_mem hsd

/-- Opening a socket over an open one loses the old one. -/
theorem not_ownedBy_connect_of_open {net : StackAnswers} {localPort : Option String}
    (hsd : sd ∈ held) (hpos : 0 < sd) (hfresh : net.socket ∉ held) (hdns : 0 ≤ net.dnsStatus) :
    ¬ OwnedBy (heldAfterConnect released net localPort held) (sdAfterConnect net localPort sd) := by
  intro howned
  have hne : sd ≠ net.socket := fun h => hfresh (h ▸ hsd)
  have hmem := mem_heldAfterConnect released localPort hsd hne
  rw [howned] at hmem
  have heq : sd = sdAfterConnect net localPort sd := by
    split at hmem
    · exact Finset.mem_singleton.mp hmem
    · exact absurd hmem (Finset.notMem_empty sd)
  unfold sdAfterConnect at heq
  rw [if_neg (by omega)] at heq
  split at heq
  · rw [heq] at hpos
    exact absurd hpos (by decide)
  · exact hne heq

/-- Opening a socket on a context that holds none: it is owned, unless it was
closed after a failed connect and not released. -/
theorem ownedBy_connect_of_closed {net : StackAnswers} {localPort : Option String}
    (hsocket : net.socket ≠ 0) (hdns : 0 ≤ net.dnsStatus) :
    OwnedBy (heldAfterConnect released net localPort ∅) (sdAfterConnect net localPort sd) ↔
      (0 < net.socket → BindOk net localPort → 0 < net.connect → released net.close = true) := by
  have hdns' : ¬ net.dnsStatus < 0 := by omega
  rcases lt_or_gt_of_ne hsocket with hneg | hpos
  · have hsd : sdAfterConnect net localPort sd = net.socket := by
      unfold sdAfterConnect
      rw [if_neg hdns', if_neg (by omega)]
    have hheld : heldAfterConnect released net localPort ∅ = ∅ := if_pos (.inr hneg.le)
    rw [hsd, hheld, ownedBy_of_nonpos hneg.le]
    exact iff_of_true rfl fun hpos => absurd hpos (by omega)
  have hopened : ¬ (net.dnsStatus < 0 ∨ net.socket ≤ 0) := by omega
  by_cases hfail : BindOk net localPort ∧ 0 < net.connect
  · have hsd : sdAfterConnect net localPort sd = uisoNetworkInvalidSocket := by
      unfold sdAfterConnect
      rw [if_neg hdns', if_pos ⟨hpos.le, hfail⟩]
    rw [hsd, ownedBy_of_nonpos (by decide)]
    unfold heldAfterConnect
    rw [if_neg hopened]
    by_cases hreleased : released net.close = true
    · rw [if_pos ⟨hfail.1, hfail.2, hreleased⟩]
      exact iff_of_true (Finset.erase_insert (Finset.notMem_empty _)) fun _ _ _ => hreleased
    · rw [if_neg fun h => hreleased h.2.2]
      exact iff_of_false (Finset.insert_ne_empty _ _)
        fun h => hreleased (h hpos hfail.1 hfail.2)
  · have hsd : sdAfterConnect net localPort sd = net.socket := by
      unfold sdAfterConnect
      rw [if_neg hdns', if_neg fun h => hfail h.2]
    have hheld : heldAfterConnect released net localPort ∅ = {net.socket} := by
      unfold heldAfterConnect
      rw [if_neg hopened, if_neg fun h => hfail ⟨h.1, h.2.1⟩]
      rfl
    rw [hsd, hheld, ownedBy_of_pos hpos]
    exact iff_of_true rfl fun _ hbind hconnect => absurd ⟨hbind, hconnect⟩ hfail

/-- `_network_connect` keeps ownership precisely if it opens its socket cleanly. -/
theorem ownedBy_connect_iff (net : StackAnswers) (localPort : Option String)
    (howned : OwnedBy held sd) (hsocket : net.socket ≠ 0) (hfresh : net.socket ∉ held) :
    OwnedBy (heldAfterConnect released net localPort held) (sdAfterConnect net localPort sd) ↔
      OpensCleanly released net localPort sd := by
  unfold OpensCleanly
  by_cases hdns : 0 ≤ net.dnsStatus
  · rw [forall_prop_of_true hdns]
    by_cases hsd : sd ≤ 0
    · obtain rfl : held = ∅ := (ownedBy_of_nonpos hsd).mp howned
      rw [ownedBy_connect_of_closed hsocket hdns]
      exact (and_iff_right hsd).symm
    · have hmem : sd ∈ held := by
        rw [(ownedBy_of_pos (by omega)).mp howned]
        exact Finset.mem_singleton_self sd
      refine iff_of_false ?_ fun h => hsd h.1
      exact not_ownedBy_connect_of_open hmem (by omega) hfresh hdns
  · have hneg : net.dnsStatus < 0 := by omega
    unfold heldAfterConnect sdAfterConnect
    rw [if_pos hneg, if_pos (.inl hneg)]
    exact iff_of_true howned fun h => absurd h hdns

/-- `_network_close` keeps ownership precisely if the socket is released. -/
theorem ownedBy_close_iff (net : StackAnswers) (howned : OwnedBy held sd) :
    OwnedBy (if 0 < sd ∧ released net.close = true then held.erase sd else held)
        (if sd ≤ 0 then sd else uisoNetworkInvalidSocket) ↔
      (0 < sd → released net.close = true) := by
  by_cases hsd : sd ≤ 0
  · rw [if_pos hsd, if_neg (by omega)]
    exact iff_of_true howned fun h => absurd h (by omega)
  · have hpos : 0 < sd := by omega
    rw [if_neg hsd, ownedBy_of_nonpos (by decide), (ownedBy_of_pos hpos).mp howned]
    by_cases hreleased : released net.close = true
    · rw [if_pos ⟨hpos, hreleased⟩]
      exact iff_of_true (Finset.erase_singleton sd) fun _ => hreleased
    · rw [if_neg fun h => hreleased h.2]
      exact iff_of_false (Finset.singleton_ne_empty sd) fun h => hreleased (h hpos)

/-! ## Whole runs -/

/-- The condition on a call: a connection is opened only over a context that
holds no open socket, and a socket that is closed is released. -/
def OpensWhenClosed (released : Int → Bool) (s : System) : Op → Prop
  | .create id net args _ =>
      SslReady args (s.ctx id) → OpensCleanly released net args.localPort (s.ctx id).sd
  | .close id net _ => 0 < (s.ctx id).sd → released net.close = true
  | .connectServer net req _ =>
      req.attempts = true → OpensCleanly released net none (s.ctx .lwm2m).sd
  | .register _ _ => True
  | .closeConnection _ _ => True

instance (s : System) : ∀ op, Decidable (OpensWhenClosed released s op)
  | .create _ _ _ _ => inferInstanceAs (Decidable (_ → _))
  | .close _ _ _ => inferInstanceAs (Decidable (_ → _))
  | .connectServer _ _ _ => inferInstanceAs (Decidable (_ → _))
  | .register _ _ => .isTrue trivial
  | .closeConnection _ _ => .isTrue trivial

theorem Ledger.ownedBy_iff (h : Ledger released start sd held w) :
    OwnedBy (heldAfter released start w) w.ctx.sd ↔ OwnedBy held sd := by
  rw [h.sd, h.held]

/-- Before a call. -/
theorem ledger_world (released : Int → Bool) (s : System) (op : Op) :
    Ledger released (s.held op.target) (s.ctx op.target).sd (s.held op.target) (s.world op) :=
  ⟨rfl, rfl⟩

/-- A program followed by a return of the session list. -/
theorem triple_andReturn {α : Type} {P Q : World → Prop} {m : Prog World α}
    {f : α → List Nat} (h : Prog.Triple P m (fun _ => Q) fun _ => True) :
    Prog.Triple P (m >>= fun a => pure (f a)) (fun _ => Q) fun _ => True :=
  Prog.triple_bind h fun _ => Prog.triple_pure fun _ hw => hw

/-- One call keeps the ownership of its context precisely if it meets the
condition. -/
theorem ownedBy_call_iff {s : System} {op : Op} {connList : List Nat} {w : World}
    (howned : OwnedBy (s.held op.target) (s.ctx op.target).sd) (hfresh : FreshSocket s op)
    (hprog : op.prog s.connList (s.world op) = .returned connList w) :
    OwnedBy (heldAfter released (s.held op.target) w) w.ctx.sd ↔ OpensWhenClosed released s op := by
  have hworld := ledger_world released s op
  cases op with
  | register id ssl =>
      have hkeeps : Prog.Keeps (Ledger released (s.held id) (s.ctx id).sd (s.held id))
          (uisoNetworkRegisterSslContext ssl) :=
        Prog.keeps_bind (Prog.keeps_modify fun _ h => h.setCtx rfl) fun _ => Prog.keeps_pure _
      have hledger := (triple_andReturn (Prog.Keeps.returns hkeeps)).returned hworld hprog
      exact iff_of_true (hledger.ownedBy_iff.mpr howned) trivial
  | create id net args script =>
      obtain ⟨hsocket, hnot⟩ := hfresh net.socket rfl
      by_cases hready : SslReady args (s.ctx id)
      · have hledger := (triple_andReturn (triple_create_ledger net args hsocket)).returned
          ⟨hworld, hready⟩ hprog
        rw [hledger.ownedBy_iff, ownedBy_connect_iff net args.localPort howned hsocket (hnot id)]
        exact ⟨fun h _ => h, fun h => h hready⟩
      · have hledger := (triple_andReturn (triple_create_not_ready net args)).returned
          ⟨hworld, hready⟩ hprog
        exact iff_of_true (hledger.ownedBy_iff.mpr howned) fun h => absurd h hready
  | close id net script =>
      have hclose : Prog.Triple (Ledger released (s.held id) (s.ctx id).sd (s.held id))
          (uisoCloseNetworkConnection net) (fun _ => Ledger released (s.held id) _ _)
          fun _ => True :=
        (triple_close (ledger_keptByCall _) net fun _ h => h.networkClose net).mono
          (fun _ h => h) (fun _ _ h => h) fun _ _ => trivial
      have hledger := (triple_andReturn hclose).returned hworld hprog
      exact hledger.ownedBy_iff.trans (ownedBy_close_iff net howned)
  | connectServer net req script =>
      obtain ⟨hsocket, hnot⟩ := hfresh net.socket rfl
      cases hreq : req.attempts with
      | true =>
          have hledger := (triple_andReturn
            (triple_connectServer_attempts net s.connList hsocket hreq)).returned hworld hprog
          rw [hledger.ownedBy_iff, ownedBy_connect_iff net none howned hsocket (hnot .lwm2m)]
          exact ⟨fun h _ => h, fun h => h hreq⟩
      | false =>
          have hledger := (triple_andReturn (Prog.Keeps.returns
            (triple_connectServer_gives_up net s.connList hreq))).returned hworld hprog
          refine iff_of_true (hledger.ownedBy_iff.mpr howned) fun h => ?_
          rw [hreq] at h
          cases h
  | closeConnection session script =>
      have hledger := (triple_closeConnection_ledger session s.connList).returned hworld hprog
      exact iff_of_true (hledger.ownedBy_iff.mpr howned) trivial

/-- A call leaves the other contexts and their ledgers alone. -/
theorem owned_update_iff {s : System} {id : WifiSocketId} {w : World} {connList : List Nat}
    (howned : Owned s) :
    Owned (s.update released id w connList) ↔
      OwnedBy (heldAfter released (s.held id) w) w.ctx.sd := by
  constructor
  · intro h
    have hid := h id
    simpa [System.update] using hid
  · intro h id'
    by_cases hid : id' = id
    · subst hid
      simpa [System.update] using h
    · simpa [System.update, hid] using howned id'

/-- One call keeps ownership precisely if it meets the condition. -/
theorem owned_step_iff {s s' : System} {op : Op} (howned : Owned s)
    (hstep : s.step released op = some s') : Owned s' ↔ OpensWhenClosed released s op := by
  unfold System.step at hstep
  split at hstep
  · rename_i hfresh
    cases hprog : op.prog s.connList (s.world op) with
    | returned connList w =>
        obtain rfl : s.update released op.target w connList = s' := by
          simpa [hprog] using hstep
        rw [owned_update_iff howned]
        exact ownedBy_call_iff (howned op.target) hfresh hprog
    | waiting w => simp [hprog] at hstep
  · cases hstep

/-- In every run, whatever the stack answers, every context owns exactly its open
socket in every state between calls precisely if every call meets the
condition. -/
theorem sockets_owned_iff (released : Int → Bool) (ops : List Op) :
    (system released).Always Owned System.init ops ↔
      (system released).Guarded (OpensWhenClosed released) System.init ops := by
  refine Machine.always_iff_guarded (J := fun _ => True) (fun _ _ _ _ _ => trivial)
    (fun s op s' _ howned hstep => owned_step_iff howned hstep) trivial ?_
  intro id
  rfl

/-- The device connects to its server, the session is closed, and it connects
again. -/
def reconnect : List Op :=
  [.connectServer (goodStack 1) ⟨some "coaps://coap.me:5684", 0, some 1⟩ [{ code := 0 }],
    .closeConnection 1 [{ code := 0 }],
    .connectServer (goodStack 2) ⟨some "coaps://coap.me:5684", 0, some 2⟩ [{ code := 0 }]]

/-- After it two sockets are open and the context knows the second, although all
calls succeed. -/
theorem reconnect_leaks_socket :
    ¬ ∀ ops : List Op, (system fun result => result == 0).Always Owned System.init ops :=
  -- evaluated in the kernel: the URI is parsed on the way
  not_forall_of_exists_not ⟨reconnect, by decide +kernel⟩

end Uiso.Lwm2m
