/-
  Lwm2m/SessionList.lean --- the list of sessions as the source keeps it: nodes that
  are allocated, linked and freed (src/lwm2m/connection.c, and the connect and close
  callbacks of src/lwm2m/lightclient/uiso_lightclient.c).

  `Represents mem l` says that `connList` is the chain of the nodes `l`, that they are
  distinct, and that no other node is allocated.  A connect appends the node it returns,
  a close takes its node out, and neither of the loops runs off the chain.  The
  functions on lists in Lwm2m/Connection.lean are what these do to `l`.
-/
import Uiso.Lwm2m.Connection
import Uiso.Foundation.Chain
import Uiso.Foundation.Machine

set_option autoImplicit false

namespace Uiso.Lwm2m

open Uiso.Foundation
open Uiso.Network

/-! ## The source on memory -/

/-- What is decided outside in one call of `lwm2m_connect_server`. -/
structure ConnectCall where
  /-- the URI in the security object, if there is one -/
  uri : Option String
  /-- the result of `mbedtls_connector_initialize` -/
  initialised : Int
  /-- the node `lwm2m_malloc` gives, if it does -/
  node : Option Nat
  /-- the `next` field of that node before it is written -/
  garbage : Option Nat
  /-- the result of `uiso_create_network_connection` -/
  ret : Int
  deriving DecidableEq, Repr

/-- The nodes of the sessions and `client_data_t.connList`. -/
structure SessionMemory where
  heap : Heap
  connList : Option Nat

namespace SessionMemory

/-- `connection_create`: the new connection and the nodes; `none` when it does not return. -/
def connectionCreate (fuel : Nat) (call : ConnectCall) (connList : Option Nat) (heap : Heap) :
    Option (Option Nat × Heap) :=
  match call.node with
  | none => some (none, heap)
  | some newConn =>
      if call.ret ≥ 0 then
        match (heap.store newConn call.garbage).setNext newConn none with
        | none => none
        | some heap =>
            match connList with
            | none => some (some newConn, heap)
            | some head =>
                match heap.lastNode fuel head with
                | none => none
                | some last =>
                    match heap.setNext last (some newConn) with
                    | none => none
                    | some heap => some (some newConn, heap)
      else some (none, (heap.store newConn call.garbage).free newConn)

/-- `connection_create` is called only once mbedTLS is initialised. -/
def createIfInitialised (fuel : Nat) (call : ConnectCall) (mem : SessionMemory) :
    Option (Option Nat × Heap) :=
  if call.initialised = 0 then connectionCreate fuel call mem.connList mem.heap
  else some (none, mem.heap)

/-- `lwm2m_connect_server`: the session it returns and the memory. -/
def lwm2mConnectServer (fuel : Nat) (call : ConnectCall) (mem : SessionMemory) :
    Option (Option Nat × SessionMemory) :=
  match call.uri.bind parseServerUri with
  | none => some (none, mem)
  | some _ =>
      match createIfInitialised fuel call mem with
      | none => none
      | some (none, heap) => some (none, { mem with heap := heap })
      | some (some newConn, heap) =>
          some (some newConn,
            ⟨heap, if mem.connList = none then some newConn else mem.connList⟩)

/-- `lwm2m_close_connection` -/
def lwm2mCloseConnection (fuel session : Nat) (mem : SessionMemory) : Option SessionMemory :=
  if some session = mem.connList then
    match mem.heap session with
    | none => none
    | some next => some ⟨mem.heap.free session, next⟩
  else
    match mem.heap.findParent session fuel mem.connList with
    | none => none
    | some none => some mem
    | some (some parent) =>
        match mem.heap session with
        | none => none
        | some next =>
            match mem.heap.setNext parent next with
            | none => none
            | some heap => some { mem with heap := heap.free session }

/-! ## What the memory represents -/

/-- `connList` is the chain of the sessions `l`, each once, and nothing else is
allocated. -/
structure Represents (mem : SessionMemory) (l : List Nat) : Prop where
  chain : mem.heap.Segment mem.connList l none
  nodup : l.Nodup
  allocated : ∀ a, mem.heap a ≠ none ↔ a ∈ l

/-- No session yet. -/
def empty : SessionMemory := ⟨Heap.empty, none⟩

theorem represents_empty : empty.Represents [] := by
  refine ⟨rfl, List.nodup_nil, fun a => ?_⟩
  simp [empty, Heap.empty]

end SessionMemory

/-- The session a call returns. -/
def ConnectCall.result (call : ConnectCall) : Option Nat :=
  if (call.uri.bind parseServerUri).isSome ∧ call.initialised = 0 ∧ call.ret ≥ 0 then call.node
  else none

/-- `lwm2m_malloc` gives an address where no node is allocated. -/
def ConnectCall.Fresh (call : ConnectCall) (mem : SessionMemory) : Prop :=
  ∀ a, call.node = some a → mem.heap a = none

instance (call : ConnectCall) (mem : SessionMemory) : Decidable (call.Fresh mem) :=
  match h : call.node with
  | none => .isTrue (by simp [ConnectCall.Fresh, h])
  | some a => decidable_of_iff (mem.heap a = none) (by simp [ConnectCall.Fresh, h])

namespace SessionMemory

variable {mem : SessionMemory} {l : List Nat} {fuel : Nat} {call : ConnectCall}

/-- `connection_create` on a list that is not empty appends the node. -/
theorem connectionCreate_append {newConn : Nat} {front : List Nat} {z : Nat}
    (h : mem.Represents (front ++ [z])) (hnode : call.node = some newConn)
    (hfree : mem.heap newConn = none) (hret : call.ret ≥ 0)
    (hfuel : (front ++ [z]).length < fuel) :
    ∃ heap, connectionCreate fuel call mem.connList mem.heap = some (some newConn, heap) ∧
      (SessionMemory.mk heap mem.connList).Represents (front ++ [z] ++ [newConn]) := by
  have hmem : newConn ∉ front ++ [z] := fun hm => (h.allocated newConn).mpr hm hfree
  have hz : z ∈ front ++ [z] := List.mem_append_right front List.mem_cons_self
  -- The new node with its `next` pointer set, before it is linked.
  let ready := (mem.heap.store newConn call.garbage).store newConn none
  have hready : ready newConn = some none := Heap.store_same _ _ _
  have hchain : ready.Segment mem.connList (front ++ [z]) none :=
    (h.chain.frame_store hmem).frame_store hmem
  obtain ⟨_, hlastNode⟩ := Heap.segment_concat.mp hchain
  obtain ⟨head, hhead⟩ : ∃ head, mem.connList = some head := by
    have hstart := h.chain
    cases front with
    | nil => exact ⟨z, hstart.1⟩
    | cons a front => exact ⟨a, hstart.1⟩
  have hlast : ready.lastNode fuel head = some z :=
    Heap.lastNode_eq (hhead ▸ hchain) (by simp at hfuel; omega)
  refine ⟨ready.store z (some newConn), ?_, ?_, ?_, fun a => ?_⟩
  · have hset : (mem.heap.store newConn call.garbage).setNext newConn none = some ready :=
      Heap.setNext_of_some (Heap.store_same _ _ _)
    have hlink : ready.setNext z (some newConn) = some (ready.store z (some newConn)) :=
      Heap.setNext_of_some hlastNode
    simp only [connectionCreate, hnode, hret, if_true, hset, hhead, hlast, hlink]
  · exact Heap.segment_link hchain h.nodup hready hmem
  · exact List.nodup_append.mpr ⟨h.nodup, List.nodup_singleton _, fun a ha b hb hab =>
      hmem (List.mem_singleton.mp hb ▸ hab ▸ ha)⟩
  · have hold := h.allocated a
    rw [Heap.store_ne_none_iff, Heap.store_ne_none_iff, Heap.store_ne_none_iff, hold,
      List.mem_append (t := [newConn]), List.mem_singleton]
    constructor
    · rintro (rfl | rfl | rfl | ha)
      · exact .inl hz
      · exact .inr rfl
      · exact .inr rfl
      · exact .inl ha
    · rintro (ha | rfl)
      · exact .inr (.inr (.inr ha))
      · exact .inr (.inl rfl)

/-- `connection_create` on the empty list leaves the node unlinked; its caller makes it the
head. -/
theorem connectionCreate_first (fuel : Nat) {newConn : Nat} (h : mem.Represents [])
    (hnode : call.node = some newConn) (hret : call.ret ≥ 0) :
    ∃ heap, connectionCreate fuel call mem.connList mem.heap = some (some newConn, heap) ∧
      (SessionMemory.mk heap (some newConn)).Represents [newConn] := by
  have hnone : mem.connList = none := h.chain
  refine ⟨(mem.heap.store newConn call.garbage).store newConn none, ?_, ?_,
    List.nodup_singleton newConn, fun a => ?_⟩
  · have hset : (mem.heap.store newConn call.garbage).setNext newConn none =
        some ((mem.heap.store newConn call.garbage).store newConn none) :=
      Heap.setNext_of_some (Heap.store_same _ _ _)
    simp only [connectionCreate, hnode, hret, if_true, hset, hnone]
  · exact ⟨rfl, none, Heap.store_same _ _ _, rfl⟩
  · rw [Heap.store_ne_none_iff, Heap.store_ne_none_iff, h.allocated a, List.mem_singleton]
    simp

/-- What `connection_create` returns, and what its caller makes of it. -/
theorem connectionCreate_spec (h : mem.Represents l) (hfresh : call.Fresh mem)
    (hfuel : l.length < fuel) :
    ∃ heap, connectionCreate fuel call mem.connList mem.heap =
        some (if call.ret ≥ 0 then call.node else none, heap) ∧
      ((if call.ret ≥ 0 then call.node else none) = none → heap = mem.heap) ∧
      ∀ c, (if call.ret ≥ 0 then call.node else none) = some c →
        (SessionMemory.mk heap (if mem.connList = none then some c else mem.connList)).Represents
          (l ++ [c]) := by
  cases hnode : call.node with
  | none =>
      refine ⟨mem.heap, ?_, fun _ => rfl, fun c hc => ?_⟩
      · simp [connectionCreate, hnode]
      · simp at hc
  | some newConn =>
      have hfree := hfresh newConn hnode
      by_cases hret : call.ret ≥ 0
      · simp only [hret, if_true, Option.some.injEq, reduceCtorEq, false_implies, true_and,
          forall_eq']
        rcases List.eq_nil_or_concat l with rfl | ⟨front, z, hl⟩
        · obtain ⟨heap, hcreate, hrep⟩ := connectionCreate_first fuel h hnode hret
          have hnone : mem.connList = none := h.chain
          exact ⟨heap, hcreate, by simpa [hnone] using hrep⟩
        · rw [List.concat_eq_append] at hl
          subst hl
          obtain ⟨heap, hcreate, hrep⟩ := connectionCreate_append h hnode hfree hret hfuel
          have hsome : mem.connList ≠ none := by
            have hstart := h.chain
            cases front with
            | nil => exact fun hnone => Option.some_ne_none z (hstart.1.symm.trans hnone)
            | cons a front => exact fun hnone => Option.some_ne_none a (hstart.1.symm.trans hnone)
          exact ⟨heap, hcreate, by simpa [hsome] using hrep⟩
      · refine ⟨mem.heap, ?_, fun _ => rfl, fun c hc => by simp [hret] at hc⟩
        simp [connectionCreate, hnode, hret, Heap.free_store_of_none hfree]

/-- A connect returns: it appends the session it returns, and a failed one leaves the memory
as it was. -/
theorem lwm2mConnectServer_spec (h : mem.Represents l) (hfresh : call.Fresh mem)
    (hfuel : l.length < fuel) :
    ∃ mem', lwm2mConnectServer fuel call mem = some (call.result, mem') ∧
      mem'.Represents (l ++ call.result.toList) ∧ (call.result = none → mem' = mem) := by
  have hsame : mem.Represents (l ++ (none : Option Nat).toList) := by simpa using h
  cases huri : call.uri.bind parseServerUri with
  | none =>
      have hresult : call.result = none := by simp [ConnectCall.result, huri]
      rw [hresult]
      exact ⟨mem, by simp [lwm2mConnectServer, huri], hsame, fun _ => rfl⟩
  | some hostPort =>
      by_cases hinit : call.initialised = 0
      · have hresult : call.result = if call.ret ≥ 0 then call.node else none := by
          simp [ConnectCall.result, huri, hinit]
        obtain ⟨heap, hcreate, hfailed, hcreated⟩ := connectionCreate_spec h hfresh hfuel
        rw [← hresult] at hcreate hfailed hcreated
        cases hcall : call.result with
        | none =>
            rw [hcall] at hcreate
            refine ⟨mem, ?_, hsame, fun _ => rfl⟩
            simp [lwm2mConnectServer, createIfInitialised, huri, hinit, hcreate,
              hfailed hcall]
        | some c =>
            rw [hcall] at hcreate
            refine ⟨_, ?_, hcreated c hcall, fun hnone => by cases hnone⟩
            simp only [lwm2mConnectServer, createIfInitialised, huri, hinit, if_true, hcreate]
      · have hresult : call.result = none := by simp [ConnectCall.result, hinit]
        rw [hresult]
        refine ⟨mem, ?_, hsame, fun _ => rfl⟩
        simp [lwm2mConnectServer, createIfInitialised, huri, hinit]

/-- Closing the first session of the list. -/
theorem lwm2mCloseConnection_head {session : Nat} {rest : List Nat}
    (h : mem.Represents (session :: rest)) :
    ∃ mem', lwm2mCloseConnection fuel session mem = some mem' ∧ mem'.Represents rest := by
  obtain ⟨hhead, next, hnext, hrest⟩ := h.chain
  obtain ⟨hmem, hnodup⟩ := List.nodup_cons.mp h.nodup
  refine ⟨⟨mem.heap.free session, next⟩, ?_, hrest.frame_free hmem, hnodup, fun a => ?_⟩
  · simp only [lwm2mCloseConnection, hhead, if_true, hnext]
  · rw [Heap.free_ne_none_iff, h.allocated a, List.mem_cons]
    constructor
    · rintro ⟨hne, heq | ha⟩
      · exact absurd heq hne
      · exact ha
    · intro ha
      exact ⟨fun heq => hmem (heq ▸ ha), .inr ha⟩

/-- Closing a session behind another one. -/
theorem lwm2mCloseConnection_inner {session z : Nat} {front rest : List Nat}
    (h : mem.Represents (front ++ [z] ++ session :: rest))
    (hfuel : (front ++ [z] ++ session :: rest).length < fuel) :
    ∃ mem', lwm2mCloseConnection fuel session mem = some mem' ∧
      mem'.Represents (front ++ [z] ++ rest) := by
  obtain ⟨hnodupFront, hnodupBack, hdisjoint⟩ := List.nodup_append.mp h.nodup
  obtain ⟨r, hfront, rfl, next, hnext, hrest⟩ := Heap.segment_append.mp h.chain
  have hmem : session ∉ front ++ [z] := fun hm =>
    hdisjoint session hm session List.mem_cons_self rfl
  have hne : some session ≠ mem.connList := by
    intro heq
    have hstart := hfront
    cases front with
    | nil =>
        exact hmem (by rw [Option.some.inj (heq.trans hstart.1)]; exact List.mem_cons_self)
    | cons a front =>
        exact hmem (by rw [Option.some.inj (heq.trans hstart.1)]; exact List.mem_cons_self)
  have hparent : mem.heap.findParent session fuel mem.connList = some (some z) :=
    Heap.findParent_eq hfront hmem (by simp at hfuel; omega)
  have hz := (Heap.segment_concat.mp hfront).2
  refine ⟨{ mem with heap := (mem.heap.store z next).free session }, ?_, ?_, ?_, fun a => ?_⟩
  · simp only [lwm2mCloseConnection, hne, if_false, hparent, hnext, Heap.setNext_of_some hz]
  · exact Heap.segment_unlink h.chain h.nodup hnext
  · exact h.nodup.sublist ((List.sublist_cons_self session rest).append_left _)
  · have hzmem : z ∈ front ++ [z] := List.mem_append_right front List.mem_cons_self
    have hsrest := (List.nodup_cons.mp hnodupBack).1
    rw [Heap.free_ne_none_iff, Heap.store_ne_none_iff, h.allocated a,
      List.mem_append (t := session :: rest), List.mem_append (t := rest), List.mem_cons]
    constructor
    · rintro ⟨hne, rfl | ha | heq | ha⟩
      · exact .inl hzmem
      · exact .inl ha
      · exact absurd heq hne
      · exact .inr ha
    · rintro (ha | ha)
      · exact ⟨fun heq => hmem (heq ▸ ha), .inr (.inl ha)⟩
      · exact ⟨fun heq => hsrest (heq ▸ ha), .inr (.inr (.inr ha))⟩

/-- A close of an open session returns and takes it out. -/
theorem lwm2mCloseConnection_spec (h : mem.Represents l) {session : Nat} (hsession : session ∈ l)
    (hfuel : l.length < fuel) :
    ∃ mem', lwm2mCloseConnection fuel session mem = some mem' ∧
      mem'.Represents (l.erase session) := by
  obtain ⟨front, rest, rfl⟩ := List.append_of_mem hsession
  have hmem : session ∉ front := fun hm =>
    (List.nodup_append.mp h.nodup).2.2 session hm session List.mem_cons_self rfl
  rw [List.erase_append_right _ hmem, List.erase_cons_head]
  rcases List.eq_nil_or_concat front with rfl | ⟨before, z, hfront⟩
  · exact lwm2mCloseConnection_head h
  · rw [List.concat_eq_append] at hfront
    subst hfront
    exact lwm2mCloseConnection_inner h hfuel

end SessionMemory

/-! ## Sequences of calls -/

/-- A call of the LWM2M core. -/
inductive SessionOp where
  | connect (call : ConnectCall)
  | close (session : Nat)
  deriving DecidableEq, Repr

/-- The memory, and the sessions that connects have returned and no close has been given
since, in the order in which they were returned. -/
structure SessionState where
  mem : SessionMemory
  opened : List Nat

/-- The calls that can be made: `lwm2m_malloc` gives a new node, and only open sessions are
closed. -/
def SessionOp.Enabled (s : SessionState) : SessionOp → Prop
  | .connect call => call.Fresh s.mem
  | .close session => session ∈ s.opened

/-- One call; `none` when it cannot be made or does not return. -/
def sessionStep (fuel : Nat) (s : SessionState) : SessionOp → Option SessionState
  | .connect call =>
      if call.Fresh s.mem then
        match SessionMemory.lwm2mConnectServer fuel call s.mem with
        | none => none
        | some (session, mem) => some ⟨mem, s.opened ++ session.toList⟩
      else none
  | .close session =>
      if session ∈ s.opened then
        match SessionMemory.lwm2mCloseConnection fuel session s.mem with
        | none => none
        | some mem => some ⟨mem, s.opened.erase session⟩
      else none

/-- The sessions under the calls of the core, the loops bounded by `fuel`. -/
def sessions (fuel : Nat) : Machine SessionState SessionOp := ⟨sessionStep fuel⟩

/-- The client before its first connect. -/
def noSessions : SessionState := ⟨.empty, []⟩

/-- The chain holds the open sessions. -/
def SessionState.Ok (s : SessionState) : Prop := s.mem.Represents s.opened

section Runs

variable {fuel : Nat} {s s' : SessionState} {op : SessionOp}

/-- An enabled call returns, keeps the chain, and opens at most one session. -/
theorem sessionStep_spec (h : s.Ok) (hfuel : s.opened.length < fuel) (hop : op.Enabled s) :
    ∃ s', (sessions fuel).step s op = some s' ∧ s'.Ok ∧
      s'.opened.length ≤ s.opened.length + 1 := by
  cases op with
  | connect call =>
      obtain ⟨mem, hconnect, hrep, _⟩ := SessionMemory.lwm2mConnectServer_spec h hop hfuel
      refine ⟨⟨mem, s.opened ++ call.result.toList⟩, ?_, hrep, ?_⟩
      · have hfresh : call.Fresh s.mem := hop
        simp only [sessions, sessionStep, hfresh, if_true, hconnect]
      · cases call.result <;> simp
  | close session =>
      obtain ⟨mem, hclose, hrep⟩ := SessionMemory.lwm2mCloseConnection_spec h hop hfuel
      refine ⟨⟨mem, s.opened.erase session⟩, ?_, hrep, ?_⟩
      · have hmem : session ∈ s.opened := hop
        simp only [sessions, sessionStep, hmem, if_true, hclose]
      · exact Nat.le_succ_of_le (List.length_erase_le)

/-- Only enabled calls are made. -/
theorem enabled_of_step (h : (sessions fuel).step s op = some s') : op.Enabled s := by
  cases op with
  | connect call =>
      simp only [sessions, sessionStep] at h
      split at h
      · assumption
      · cases h
  | close session =>
      simp only [sessions, sessionStep] at h
      split at h
      · assumption
      · cases h

/-- A run that starts with the chain in order ends so, with at most one more session for
each call. -/
theorem sessions_run {ops : List SessionOp} (h : s.Ok)
    (hfuel : s.opened.length + ops.length < fuel)
    (hrun : (sessions fuel).run s ops = some s') :
    s'.Ok ∧ s'.opened.length ≤ s.opened.length + ops.length := by
  induction ops generalizing s with
  | nil =>
      obtain rfl : s = s' := by simpa using hrun
      exact ⟨h, Nat.le_refl _⟩
  | cons op ops ih =>
      obtain ⟨t, hstep, hrest⟩ := Machine.run_uncons hrun
      rw [List.length_cons] at hfuel ⊢
      have hlt : s.opened.length < fuel := by omega
      obtain ⟨t', hstep', hok, hle⟩ := sessionStep_spec h hlt (enabled_of_step hstep)
      obtain rfl : t' = t := Option.some.inj (hstep'.symm.trans hstep)
      obtain ⟨hok', hle'⟩ := ih hok (by omega) hrest
      exact ⟨hok', by omega⟩

/-- For any sequence of connects, failing at any stage or not, and closes of open sessions:
`connList` is a NULL-terminated chain of exactly the sessions returned and not closed, each
once, in the order of their creation, all of them allocated; every further call returns; and
a connect that fails leaves the memory as it was.  The bound on the loops has to exceed the
number of calls only. -/
theorem session_chain_holds_open_sessions (ops : List SessionOp) (fuel : Nat)
    (hfuel : ops.length < fuel) (s : SessionState)
    (hrun : (sessions fuel).run noSessions ops = some s) :
    s.mem.Represents s.opened ∧
      (∀ op : SessionOp, op.Enabled s → ∃ s', (sessions fuel).step s op = some s') ∧
      ∀ (call : ConnectCall) (mem : SessionMemory), call.Fresh s.mem →
        SessionMemory.lwm2mConnectServer fuel call s.mem = some (none, mem) → mem = s.mem := by
  have hstart : noSessions.Ok := SessionMemory.represents_empty
  have hzero : noSessions.opened.length + ops.length = ops.length := Nat.zero_add _
  obtain ⟨hok, hle⟩ := sessions_run hstart (by omega) hrun
  have hlength : s.opened.length < fuel := by omega
  refine ⟨hok, fun op hop => ?_, fun call mem hfresh hfailed => ?_⟩
  · obtain ⟨s', hstep, _⟩ := sessionStep_spec hok hlength hop
    exact ⟨s', hstep⟩
  · obtain ⟨mem', hconnect, _, hsame⟩ :=
      SessionMemory.lwm2mConnectServer_spec hok hfresh hlength
    have hpair := Option.some.inj (hconnect.symm.trans hfailed)
    obtain rfl : mem' = mem := congrArg Prod.snd hpair
    exact hsame (congrArg Prod.fst hpair)

end Runs

/-- A call that connects to a server with the node at an address. -/
def goodCall (node : Nat) : ConnectCall :=
  ⟨some "coaps://coap.me:5684", 0, some node, none, 0⟩

theorem session_chain_two_opened_one_closed :
    ∃ s, (sessions 4).run noSessions
        [.connect (goodCall 1), .connect (goodCall 2), .close 1] = some s ∧
      s.opened = [2] ∧ s.mem.Represents s.opened :=
  ⟨_, rfl, rfl, (session_chain_holds_open_sessions
    [.connect (goodCall 1), .connect (goodCall 2), .close 1] 4 (by decide) _ rfl).1⟩

/-! ## The functions on lists -/

section Lists

variable {l l' : List Nat} {w w' : World} {mem : SessionMemory} {fuel : Nat}

/-- A program may do anything. -/
theorem triple_true {α : Type} (m : Prog World α) :
    Prog.Triple (fun _ => True) m (fun _ _ => True) (fun _ => True) := by
  intro w _
  cases m w <;> trivial

/-- What the end of `lwm2m_connect_server` does to the list when there is no connection. -/
theorem triple_finishConnect_none (l : List Nat) :
    Prog.Triple (fun _ => True) (finishConnect (none, l)) (fun result _ => result = (none, l))
      (fun _ => True) :=
  Prog.triple_bind (triple_true _) fun _ => Prog.triple_pure fun _ _ => rfl

/-- What it does when the network connection was tried. -/
theorem triple_finishConnect_append (newConn : Nat) (l : List Nat) (ret : Int) :
    Prog.Triple (fun _ => True) (finishConnect (appendConnection newConn l ret))
      (fun result _ => result = if ret ≥ 0 then (some newConn, l ++ [newConn]) else (none, l))
      (fun _ => True) := by
  by_cases hret : 0 ≤ ret
  · by_cases hl : l = []
    · simp only [appendConnection, hret, hl, if_true, finishConnect]
      exact Prog.triple_pure fun _ _ => rfl
    · simp only [appendConnection, hret, hl, if_true, if_false, finishConnect]
      exact Prog.triple_pure fun _ _ => by simp
  · simp only [appendConnection, hret, if_false]
    exact triple_finishConnect_none l

/-- The ways in which the connection attempt ends. -/
theorem triple_createIfConfigured (net : StackAnswers) (req : ServerRequest) (l : List Nat)
    (host port : String) (configured : Int) :
    Prog.Triple (fun _ => True) (createIfConfigured net req l host port configured)
      (fun created _ =>
        (created = (none, l) ∧ (configured ≠ 0 ∨ req.node = none)) ∨
          configured = 0 ∧ ∃ newConn ret, req.node = some newConn ∧
            created = appendConnection newConn l ret)
      (fun _ => True) := by
  unfold createIfConfigured
  split
  · rename_i hconf
    cases hnode : req.node with
    | none => exact Prog.triple_pure fun _ _ => .inl ⟨rfl, .inr rfl⟩
    | some newConn =>
        exact Prog.triple_bind (triple_true _) fun ret =>
          Prog.triple_pure fun _ _ => .inr ⟨hconf, newConn, ret, rfl, rfl⟩
  · rename_i hconf
    exact Prog.triple_pure fun _ _ => .inl ⟨rfl, .inl hconf⟩

/-- What `lwm2m_connect_server` does to the list is what the call on memory does. -/
theorem triple_connectServer_list (net : StackAnswers) (req : ServerRequest) (l : List Nat) :
    Prog.Triple (fun _ => True) (lwm2mConnectServer net req l)
      (fun result _ => ∃ call : ConnectCall, call.uri = req.uri ∧ call.node = req.node ∧
        result = (call.result, l ++ call.result.toList))
      (fun _ => True) := by
  unfold lwm2mConnectServer
  cases huri : req.uri.bind parseServerUri with
  | none =>
      refine Prog.triple_pure fun _ _ => ⟨⟨req.uri, 0, req.node, none, 0⟩, rfl, rfl, ?_⟩
      simp [ConnectCall.result, huri]
  | some hostPort =>
      obtain ⟨host, port⟩ := hostPort
      refine Prog.triple_bind (triple_true _) fun configured => ?_
      refine Prog.triple_bind (triple_createIfConfigured net req l host port configured)
        fun created => ?_
      refine Prog.triple_of_const fun hcreated => ?_
      rcases hcreated with ⟨rfl, hfailed⟩ | ⟨rfl, newConn, ret, hnode, rfl⟩
      · refine (triple_finishConnect_none l).mono (fun _ h => h) (fun result _ hresult => ?_)
          (fun _ h => h)
        refine ⟨⟨req.uri, configured, req.node, none, 0⟩, rfl, rfl, ?_⟩
        rcases hfailed with hconf | hnode
        · simp [ConnectCall.result, hconf, hresult]
        · simp [ConnectCall.result, hnode, hresult]
      · refine (triple_finishConnect_append newConn l ret).mono (fun _ h => h)
          (fun result _ hresult => ?_) (fun _ h => h)
        refine ⟨⟨req.uri, 0, req.node, none, ret⟩, rfl, rfl, ?_⟩
        by_cases hret : ret ≥ 0
        · simpa [ConnectCall.result, huri, hnode, hret] using hresult
        · simpa [ConnectCall.result, huri, hret] using hresult

/-- A connect of the model on lists is one of the model on memory, for any memory that
represents the list. -/
theorem lwm2mConnectServer_refines {net : StackAnswers} {req : ServerRequest}
    {session : Option Nat} (hrun : lwm2mConnectServer net req l w = .returned (session, l') w')
    (h : mem.Represents l) (hfresh : ∀ a, req.node = some a → mem.heap a = none)
    (hfuel : l.length < fuel) :
    ∃ (call : ConnectCall) (mem' : SessionMemory),
      SessionMemory.lwm2mConnectServer fuel call mem = some (session, mem') ∧
        mem'.Represents l' := by
  obtain ⟨call, _, hnode, hresult⟩ := (triple_connectServer_list net req l).returned trivial hrun
  obtain ⟨rfl, rfl⟩ := Prod.mk.inj hresult
  have hcall : call.Fresh mem := fun a ha => hfresh a (hnode.symm.trans ha)
  obtain ⟨mem', hconnect, hrep, _⟩ := SessionMemory.lwm2mConnectServer_spec h hcall hfuel
  exact ⟨call, mem', hconnect, hrep⟩

/-- The same for a close of an open session. -/
theorem lwm2mCloseConnection_refines {session : Nat}
    (hrun : lwm2mCloseConnection session l w = .returned l' w') (h : mem.Represents l)
    (hsession : session ∈ l) (hfuel : l.length < fuel) :
    ∃ mem', SessionMemory.lwm2mCloseConnection fuel session mem = some mem' ∧
      mem'.Represents l' := by
  have hlist : Prog.Triple (fun _ => True) (lwm2mCloseConnection session l)
      (fun result _ => result = l.erase session) (fun _ => True) :=
    Prog.triple_bind (triple_true _) fun _ => Prog.triple_pure fun _ _ => rfl
  obtain rfl := hlist.returned trivial hrun
  exact SessionMemory.lwm2mCloseConnection_spec h hsession hfuel

end Lists

end Uiso.Lwm2m
