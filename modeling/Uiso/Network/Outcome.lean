/-
  Network/Outcome.lean --- what a non-negative result of
  `uiso_create_network_connection` says about the stages behind it.

  The stages are threaded through one `ret`.  `_network_connect` tests the result
  of `connect` with `0 < connect(..)`, although the errors of the stack are
  negative: a connection that was refused is taken for one that was made.  The
  other stages are tested the right way round, except that a missing BIO is
  never noticed.
-/
import Uiso.Network.Connect

set_option autoImplicit false

namespace Uiso.Network

open Uiso.Foundation

/-! ## The handshake loop returns -/

@[simp] theorem World.bioAct_script (w : World) (act : BioAct) :
    (w.bioAct act).script = w.script := by
  unfold World.bioAct
  split <;> rfl

theorem World.bioActs_script (acts : List BioAct) (w : World) :
    (acts.foldl World.bioAct w).script = w.script :=
  World.bioActs_keep (I := fun w' => w'.script = w.script)
    (fun w' act h => (World.bioAct_script w' act).trans h) acts w rfl

theorem World.afterSsl_script (w : World) (call : SslCall) (a : Answer) :
    (w.afterSsl call a).script = w.script := by
  unfold World.afterSsl
  rw [World.emit_script, World.bioActs_script, World.emit_script]

theorem sslCall_cons {w : World} {call : SslCall} {a : Answer} {rest : List Answer}
    (h : w.script = a :: rest) :
    sslCall call w = .returned a (World.afterSsl { w with script := rest } call a) := by
  have hanswer : answer (w.emit (.sslCall call)) =
      .returned a (World.emit { w with script := rest } (.sslCall call)) := by
    unfold answer
    rw [World.emit_script, h]
    rfl
  unfold sslCall
  rw [Prog.bind_returned (Prog.modify_apply _ _), Prog.bind_returned hanswer,
    Prog.bind_returned (Prog.modify_apply _ _)]
  rfl

/-- The answer with which a loop on `again` ends. -/
def finalAnswer (again : Int → Bool) (script : List Answer) : Option Answer :=
  script.find? fun a => !again a.code

/-- A loop around an mbedTLS call returns the first code that ends it. -/
theorem retry_returns {again : Int → Bool} (call : SslCall) {final : Answer} :
    ∀ (script : List Answer) (rounds : Nat) (w : World), w.script = script →
      script.length < rounds → finalAnswer again script = some final →
      ∃ w', Prog.retry (fun a => again a.code) (sslCall call) rounds w = .returned final w' := by
  intro script
  induction script with
  | nil =>
      intro rounds w _ _ hfinal
      exact absurd hfinal (by simp [finalAnswer])
  | cons a rest ih =>
      intro rounds w hscript hrounds hfinal
      obtain ⟨rounds, rfl⟩ : ∃ n, rounds = n + 1 := ⟨rounds - 1, by omega⟩
      unfold Prog.retry
      rw [Prog.bind_returned (sslCall_cons hscript)]
      cases hagain : again a.code with
      | true =>
          have hrest : finalAnswer again rest = some final := by
            simpa [finalAnswer, List.find?_cons, hagain] using hfinal
          have hlen : rest.length < rounds := by
            rw [List.length_cons] at hrounds
            omega
          simpa using ih rounds _ (World.afterSsl_script _ call a) hlen hrest
      | false =>
          have hfinal' : a = final := by
            simpa [finalAnswer, List.find?_cons, hagain] using hfinal
          exact ⟨World.afterSsl { w with script := rest } call a, by simp [hfinal']⟩

theorem sslRetry_returns {again : Int → Bool} (call : SslCall) {w : World} {final : Answer}
    (h : finalAnswer again w.script = some final) :
    ∃ w', sslRetry again call w = .returned final.code w' := by
  obtain ⟨w', hw'⟩ := retry_returns call w.script (w.script.length + 1) w rfl
    (Nat.lt_succ_self _) h
  unfold sslRetry
  rw [Prog.bind_returned (Prog.lift_apply _ _), Prog.bind_returned hw']
  exact ⟨w', rfl⟩

/-! ## The stages before it leave the answers alone -/

theorem networkConnect_script (net : StackAnswers) (args : ConnectArgs) (w : World) :
    (networkConnect net args w).2.script = w.script := by
  refine networkConnect_keeps (I := fun w' => w'.script = w.script) ?_ ?_ ?_ ?_ ?_
  · unfold resolvePeer
    by_cases h : net.dnsStatus < 0 <;> simp [h]
  · exact fun _ h => h
  · exact fun _ h => h
  · intro w' h
    cases args.localPort <;> exact h
  · intro w' h
    unfold connectPeer
    by_cases hconnect : 0 < net.connect <;> simpa [hconnect] using h

theorem prepareConnection_script (net : StackAnswers) (args : ConnectArgs) (w : World) :
    (prepareConnection net args w).2.script = w.script := by
  by_cases h : SslReady args w.ctx
  · rw [prepareConnection_of_ready h, networkConnect_script, World.setCtx_script]
  · rw [prepareConnection_of_not_ready h, World.setCtx_script]

/-! ## The result of the whole call -/

/-- If the handshake loop ends, so does `uiso_create_network_connection`; it
returns the code of the last stage it came to. -/
theorem create_returns (net : StackAnswers) (args : ConnectArgs) (w : World) (final : Answer)
    (h : args.proto.secure = true → finalAnswer wantsIo w.script = some final) :
    ∃ w', uisoCreateNetworkConnection net args w =
      .returned
        (if Reaches net args w.ctx ∧ args.proto.secure = true then final.code
          else (prepareConnection net args w).1) w' := by
  have hret := prepareConnection_ret net args w
  unfold uisoCreateNetworkConnection performHandshake
  rw [Prog.bind_returned (Prog.lift_apply _ _)]
  by_cases hreach : Reaches net args w.ctx ∧ args.proto.secure = true
  · have hscript := prepareConnection_script net args w
    obtain ⟨w', hw'⟩ := sslRetry_returns .handshake (hscript ▸ h hreach.2)
    rw [if_pos hreach, if_pos ⟨hret.mpr hreach.1, hreach.2⟩, Prog.bind_returned hw',
      Prog.bind_returned (Prog.modify_apply _ _)]
    exact ⟨_, rfl⟩
  · have hskip : ¬ (0 ≤ (prepareConnection net args w).1 ∧ args.proto.secure = true) :=
      fun hcond => hreach ⟨hret.mp hcond.1, hcond.2⟩
    rw [if_neg hreach, if_neg hskip, Prog.bind_returned (Prog.pure_apply _ _),
      Prog.bind_returned (Prog.modify_apply _ _)]
    exact ⟨_, rfl⟩

/-- Every stage of a connection reported success.  On a non-blocking socket
`connect` may also say that it is under way. -/
structure Connected (net : StackAnswers) (args : ConnectArgs) (w : World) : Prop where
  dns : 0 ≤ net.dnsStatus
  socket : 0 ≤ net.socket
  bind : BindOk net args.localPort
  connect : 0 ≤ net.connect ∨ net.connect = slEalready
  secure : args.proto.secure = true →
    (prepareConnection net args w).2.ctx.bio.isSome = true ∧
      (finalAnswer wantsIo w.script).map Answer.code = some 0

/-- Every stage passes the test the code makes of it. -/
def StagesPass (net : StackAnswers) (args : ConnectArgs) (w : World) : Prop :=
  Reaches net args w.ctx ∧
    (args.proto.secure = true → (finalAnswer wantsIo w.script).map Answer.code = some 0)

/-- The condition: where the stages pass the code's tests, `connect` reported no
error, and there are callbacks for a secure protocol, either from the protocol
the context was last used for or left from before. -/
def NoSilentFailure (net : StackAnswers) (args : ConnectArgs) (w : World) : Prop :=
  StagesPass net args w →
    (net.connect = 0 ∨ net.connect = slEalready) ∧
    (args.proto.secure = true →
      (bioFor w.ctx.protocol).isSome = true ∨ w.ctx.bio.isSome = true)

theorem create_nonneg_iff (net : StackAnswers) {args : ConnectArgs} {w : World}
    (hfinal : args.proto.secure = true →
      ∃ final, finalAnswer wantsIo w.script = some final ∧ final.code ≤ 0) :
    ∃ ret w', uisoCreateNetworkConnection net args w = .returned ret w' ∧
      (0 ≤ ret ↔ StagesPass net args w) := by
  cases hsec : args.proto.secure with
  | false =>
      obtain ⟨w', hw'⟩ := create_returns net args w { code := 0 } (by simp [hsec])
      refine ⟨_, w', hw', ?_⟩
      rw [if_neg (by simp [hsec]), prepareConnection_ret]
      simp [StagesPass, hsec]
  | true =>
      obtain ⟨final, hfound, hcode⟩ := hfinal hsec
      obtain ⟨w', hw'⟩ := create_returns net args w final fun _ => hfound
      refine ⟨_, w', hw', ?_⟩
      by_cases hreach : Reaches net args w.ctx
      · rw [if_pos ⟨hreach, hsec⟩]
        simp only [StagesPass, hreach, hsec, hfound, true_and, forall_const, Option.map_some,
          Option.some.injEq]
        omega
      · rw [if_neg (by simp [hreach]), prepareConnection_ret]
        simp [StagesPass, hreach]

/-- When the stages pass, they were successful precisely if nothing failed
silently. -/
theorem connected_iff {net : StackAnswers} {args : ConnectArgs} {w : World}
    (hpass : StagesPass net args w) :
    Connected net args w ↔ (net.connect = 0 ∨ net.connect = slEalready) ∧
      (args.proto.secure = true →
        (bioFor w.ctx.protocol).isSome = true ∨ w.ctx.bio.isSome = true) := by
  obtain ⟨hreach, hhandshake⟩ := hpass
  have hbio : args.proto.secure = true →
      ((prepareConnection net args w).2.ctx.bio.isSome = true ↔
        (bioFor w.ctx.protocol).isSome = true ∨ w.ctx.bio.isSome = true) := by
    intro hsec
    rw [prepareConnection_bio net hsec hreach.ssl, Option.isSome_or, Bool.or_eq_true]
  constructor
  · intro h
    refine ⟨?_, fun hsec => (hbio hsec).mp (h.secure hsec).1⟩
    have hconnect := hreach.connect
    exact h.connect.imp (fun hle => by omega) id
  · rintro ⟨hconnect, hsecure⟩
    refine ⟨hreach.dns, hreach.socket, hreach.bind, ?_, fun hsec => ?_⟩
    · exact hconnect.imp (fun heq => by omega) id
    · exact ⟨(hbio hsec).mpr (hsecure hsec), hhandshake hsec⟩

/-- For every context, all arguments and all answers of the stack:
`uiso_create_network_connection` returns, and a non-negative result means that
every stage succeeded precisely if nothing failed silently.  The handshake is
assumed to end, with zero or a negative error. -/
theorem create_nonneg_means_connected_iff {net : StackAnswers} {args : ConnectArgs} {w : World}
    (hfinal : args.proto.secure = true →
      ∃ final, finalAnswer wantsIo w.script = some final ∧ final.code ≤ 0) :
    ∃ ret w', uisoCreateNetworkConnection net args w = .returned ret w' ∧
      ((0 ≤ ret → Connected net args w) ↔ NoSilentFailure net args w) := by
  obtain ⟨ret, w', hreturned, hret⟩ := create_nonneg_iff net hfinal
  refine ⟨ret, w', hreturned, ?_⟩
  rw [hret]
  exact imp_congr_right fun hpass => connected_iff hpass

/-- A context that was used for DTLS before, with its callbacks installed. -/
def usedDtlsCtx : NetworkCtx :=
  { initializeNetworkCtx with protocol := .dtlsIp4, sslContext := some ⟨some .udp, 1472⟩ }

/-- A second DTLS connection whose handshake waits once and then succeeds. -/
theorem create_nonneg_means_connected_iff_dtls :
    ∃ ret w', uisoCreateNetworkConnection (goodStack 1) ⟨"coap.me", "5684", none, .dtlsIp4⟩
        ⟨usedDtlsCtx, [{ code := mbedtlsErrSslWantRead }, { code := 0 }], []⟩ =
          .returned ret w' ∧
      ((0 ≤ ret → Connected (goodStack 1) ⟨"coap.me", "5684", none, .dtlsIp4⟩
          ⟨usedDtlsCtx, [{ code := mbedtlsErrSslWantRead }, { code := 0 }], []⟩) ↔
        NoSilentFailure (goodStack 1) ⟨"coap.me", "5684", none, .dtlsIp4⟩
          ⟨usedDtlsCtx, [{ code := mbedtlsErrSslWantRead }, { code := 0 }], []⟩) :=
  create_nonneg_means_connected_iff fun _ => ⟨{ code := 0 }, by decide, by decide⟩

/-- `connect` is refused (`SL_ECONNREFUSED`) and the call reports success. -/
theorem refused_connect_reported_as_success :
    ¬ ∀ (net : StackAnswers) (args : ConnectArgs) (w w' : World) (ret : Int),
      (args.proto.secure = true →
        ∃ final, finalAnswer wantsIo w.script = some final ∧ final.code ≤ 0) →
      uisoCreateNetworkConnection net args w = .returned ret w' →
      0 ≤ ret → Connected net args w := by
  intro h
  have hconnected := h { goodStack 1 with connect := -111 } ⟨"coap.me", "5683", none, .udpIp4⟩
    ⟨initializeNetworkCtx, [], []⟩ _ 0 (fun hsec => absurd hsec (by decide)) rfl (by decide)
  exact absurd hconnected.connect (by decide)

end Uiso.Network
