/-
  Network/IdleTime.lean --- the idle time of `_send_dtls` on a clock that is set.

  Without a connection id, `_send_dtls` renegotiates when the session has been idle for more
  than 120 s.  It takes the idle time as the difference of two readings of the RTC, which
  `uiso_sntp_request` sets from another task: a step between two sends counts as idle time,
  and a step back as almost 2^32 s of it.

  TIMELINE is the machine of one DTLS context, the RTC and a clock that is never set.  Two
  more variables record when, on that clock, the last successful send ended and by how much
  the RTC was stepped since; no step depends on them.  A run begins where
  `uiso_create_network_connection` has returned, which counts as a send: it stamps the
  context like one.
-/
import Uiso.Network.Continuity
import Uiso.Network.Outcome
import Uiso.Sntp.Acceptance

set_option autoImplicit false

namespace Uiso.Network

open Uiso.Foundation

/-! ## The machine -/

/-- A DTLS context in time. -/
structure Timeline where
  ctx : NetworkCtx
  /-- a call on the context has not returned -/
  hung : Bool
  /-- the data of the SNTP client, the RTC among them -/
  sntp : Sntp.World
  /-- seconds on a clock that is not stepped -/
  real : Nat
  /-- when the last successful send or the opening ended, on that clock -/
  lastSend : Nat
  /-- by how many seconds the RTC was stepped since -/
  stepped : Int

/-- What can happen. -/
inductive Moment where
  /-- time passes -/
  | pass (seconds : Nat)
  /-- `uiso_sntp_request` runs, in another task -/
  | sntpRequest (server : Sntp.Server) (interval : UInt32) (answers : Sntp.Answers)
  | read (seconds length : Nat) (script : List Answer)
  /-- `cid` is the result of `mbedtls_ssl_get_peer_cid`, which finds no connection id -/
  | send (seconds length : Nat) (cid : Int) (script : List Answer)

namespace Timeline

/-- Time passes on both clocks. -/
def advance (s : Timeline) (seconds : Nat) : Timeline :=
  { s with
    real := s.real + seconds
    sntp := { s.sntp with rtc := s.sntp.rtc + UInt32.ofNat seconds } }

/-- A send that takes some seconds, with what it does to the outside. -/
def sending (s : Timeline) (seconds length : Nat) (cid : Int) (script : List Answer) :
    Outcome World Int :=
  uisoNetworkSend s.sntp.rtc (s.sntp.rtc + UInt32.ofNat seconds) length
    ⟨s.ctx, { code := cid } :: script, []⟩

/-- One step. -/
def step (s : Timeline) : Moment → Option Timeline
  | .pass seconds => some (s.advance seconds)
  | .sntpRequest server interval answers =>
      let o := Sntp.uisoSntpRequest (some server) (some interval) answers s.sntp
      some { s with
        sntp := o.world
        stepped := s.stepped + (o.world.rtc.toNat - s.sntp.rtc.toNat) }
  | .read seconds length script =>
      if s.hung = true then none
      else
        match uisoNetworkRead length ⟨s.ctx, script, []⟩ with
        | .returned _ w => some { s.advance seconds with ctx := w.ctx }
        | .waiting w => some { s.advance seconds with ctx := w.ctx, hung := true }
  | .send seconds length cid script =>
      if s.hung = true then none
      else
        match s.sending seconds length cid script with
        | .returned ret w =>
            if 0 ≤ ret then
              some { s.advance seconds with
                ctx := w.ctx
                lastSend := s.real + seconds
                stepped := 0 }
            else some { s.advance seconds with ctx := w.ctx }
        | .waiting w => some { s.advance seconds with ctx := w.ctx, hung := true }

end Timeline

/-- A DTLS context in time, as a machine. -/
def timeline : Machine Timeline Moment := ⟨Timeline.step⟩

/-! ## Attempts -/

/-- A renegotiation is asked for. -/
def isAttempt : NetEvent → Bool
  | .sslCall call => call.isRenegotiation
  | _ => false

theorem noTransport_isAttempt : NoTransport isAttempt :=
  ⟨fun _ _ _ _ _ => rfl, fun _ _ _ _ => rfl, fun _ _ _ _ => rfl, fun _ _ _ => rfl⟩

/-- The world a program has come to. -/
def reached : Outcome World Int → World
  | .returned _ w => w
  | .waiting w => w

/-- The step is a send that attempts a renegotiation. -/
def Attempts (s : Timeline) : Moment → Prop
  | .send seconds length cid script => (reached (s.sending seconds length cid script)).saw isAttempt
  | _ => False

instance (s : Timeline) : ∀ m, Decidable (Attempts s m)
  | .send _ _ _ _ => inferInstanceAs (Decidable (World.saw _ _))
  | .pass _ | .sntpRequest _ _ _ | .read _ _ _ => .isFalse id

/-- Whether there was an attempt is changed by no other mbedTLS call. -/
theorem attempt_kept (c : Prop) (call : SslCall) (hcall : call.isRenegotiation = false) :
    KeptByCall (fun w => w.saw isAttempt ↔ c) call where
  script := fun _ _ h => h
  bioAct := fun w act h => (noTransport_isAttempt.saw_bioAct w act).trans h
  sslCall := by
    intro w h
    simp only [World.saw_emit, isAttempt, hcall, Bool.false_eq_true, or_false, h]
  sslReturn := by
    intro w result h
    simp only [World.saw_emit, isAttempt, Bool.false_eq_true, or_false, h]

/-- The renegotiation of `_send_dtls` is an attempt, whatever becomes of it. -/
theorem triple_renegotiate_attempts (P : World → Prop) (idle : UInt32) :
    Prog.Triple P (renegotiate idle) (fun _ w => w.saw isAttempt ↔ True)
      fun w => w.saw isAttempt ↔ True := by
  have hcall : ∀ P : World → Prop, Prog.Triple P (sslCall (.renegotiate idle))
      (fun a w => if renegotiateAgain a.code = true then (w.saw isAttempt ↔ True)
        else (w.saw isAttempt ↔ True)) fun w => w.saw isAttempt ↔ True := by
    intro P
    refine triple_sslCall (fun w _ => ?_) fun w a rest _ => ?_
    · exact iff_true_intro ((w.saw_emit _ _).mpr (.inr rfl))
    · rw [ite_self]
      exact iff_true_intro ((noTransport_isAttempt.saw_afterSsl _ _ _).mpr (.inr (.inl rfl)))
  refine Prog.triple_bind (triple_sslRetry (Q := fun _ w => w.saw isAttempt ↔ True) (hcall P)
    (hcall _) fun _ h => h) fun ret => ?_
  refine Prog.triple_bind (keeps_recoverRenegotiation (attempt_kept True) ret) fun ret => ?_
  exact Prog.triple_pure fun _ h => h

/-- Without a connection id, the session is refreshed precisely if it looks idle. -/
theorem triple_refreshSession_attempts (cid : Int) (idle : UInt32) :
    Prog.Triple (fun w => ¬w.saw isAttempt) (refreshSession { code := cid } idle)
      (fun _ w => w.saw isAttempt ↔ 120 < idle) fun w => w.saw isAttempt ↔ 120 < idle := by
  unfold refreshSession
  rw [if_neg Bool.false_ne_true]
  by_cases hidle : 120 < idle
  · simp only [hidle, if_true]
    exact triple_renegotiate_attempts _ idle
  · simp only [hidle, if_false]
    exact Prog.triple_pure fun w hw => iff_of_false hw id

/-- `_send_dtls` attempts a renegotiation precisely if the RTC has moved by more than 120 s. -/
theorem sendDtls_attempts_iff (now later : UInt32) (length : Nat) (ctx : NetworkCtx) (cid : Int)
    (script : List Answer) :
    (reached (sendDtls now later length ⟨ctx, { code := cid } :: script, []⟩)).saw isAttempt ↔
      120 < now - ctx.lastSendTime := by
  have hprepare : Prog.Triple (· = ⟨ctx, { code := cid } :: script, []⟩) (prepareSend now)
      (fun _ w => w.saw isAttempt ↔ 120 < now - ctx.lastSendTime)
      fun w => w.saw isAttempt ↔ 120 < now - ctx.lastSendTime := by
    rintro _ rfl
    have hcid : prepareSend now ⟨ctx, { code := cid } :: script, []⟩ =
        refreshSession { code := cid } (now - ctx.lastSendTime)
          ⟨ctx, script, [.sslCall .getPeerCid, .sslReturn .getPeerCid cid]⟩ := rfl
    rw [hcid]
    exact triple_refreshSession_attempts cid _ _ (by simp [World.saw, isAttempt,
      SslCall.isRenegotiation])
  have hsend : Prog.Triple (· = ⟨ctx, { code := cid } :: script, []⟩) (sendDtls now later length)
      (fun _ w => w.saw isAttempt ↔ 120 < now - ctx.lastSendTime)
      fun w => w.saw isAttempt ↔ 120 < now - ctx.lastSendTime := by
    refine Prog.triple_bind hprepare fun ret => ?_
    refine Prog.triple_bind (keeps_sendPrepared (attempt_kept _) length ret) fun ret => ?_
    refine Prog.triple_bind (Q := fun _ w => w.saw isAttempt ↔ 120 < now - ctx.lastSendTime)
      (Prog.triple_modify fun w hw => ?_) fun _ => Prog.triple_pure fun _ h => h
    split
    · exact hw
    · exact hw
  cases hresult : sendDtls now later length ⟨ctx, { code := cid } :: script, []⟩ with
  | returned ret w => exact hsend.returned rfl hresult
  | waiting w => exact hsend.waiting rfl hresult

/-! ## The idle time -/

/-- The context is one of DTLS, and since the last successful send the RTC has moved by the
time that has passed and the steps made. -/
structure Tracks (s : Timeline) : Prop where
  dtls : UsesDtls ⟨s.ctx, [], []⟩
  clock : s.hung = false → s.lastSend ≤ s.real ∧
    ((s.ctx.lastSendTime.toNat : Int) + (s.real - s.lastSend) + s.stepped) % 2 ^ 32 =
      s.sntp.rtc.toNat

theorem Tracks.advance {s : Timeline} (h : Tracks s) (seconds : Nat) :
    Tracks (s.advance seconds) := by
  refine ⟨h.dtls, fun hhung => ?_⟩
  obtain ⟨hle, hclock⟩ := h.clock hhung
  have hrtc : (s.sntp.rtc + UInt32.ofNat seconds).toNat =
      (s.sntp.rtc.toNat + seconds) % 2 ^ 32 := by
    rw [UInt32.toNat_add, UInt32.toNat_ofNat', Nat.add_mod_mod]
  refine ⟨Nat.le_add_right_of_le hle, ?_⟩
  simp only [Timeline.advance, hrtc]
  omega

/-- A step that leaves the time of the last send. -/
theorem Tracks.withCtx {s : Timeline} (h : Tracks s) {ctx : NetworkCtx}
    (hdtls : UsesDtls ⟨ctx, [], []⟩) (htime : ctx.lastSendTime = s.ctx.lastSendTime) :
    Tracks { s with ctx := ctx } := by
  refine ⟨hdtls, ?_⟩
  rw [htime]
  exact h.clock

/-- A read leaves the time of the last send. -/
theorem Tracks.read {s : Timeline} (h : Tracks s) {length : Nat} {script : List Answer} {ret : Int}
    {w : World} (hread : uisoNetworkRead length ⟨s.ctx, script, []⟩ = .returned ret w) :
    w.ctx.lastSendTime = s.ctx.lastSendTime := by
  have hdtls : UsesDtls ⟨s.ctx, script, []⟩ := h.dtls
  rw [hdtls.read_eq] at hread
  exact (keeps_readDtls (fun call _ => lastSendTime_kept s.ctx.lastSendTime call) length).returned
    rfl hread

/-- A send sets it when it succeeds. -/
theorem Tracks.sending {s : Timeline} (h : Tracks s) {seconds length : Nat} {cid : Int}
    {script : List Answer} {ret : Int} {w : World}
    (hsend : s.sending seconds length cid script = .returned ret w) :
    w.ctx.lastSendTime =
      if 0 ≤ ret then s.sntp.rtc + UInt32.ofNat seconds else s.ctx.lastSendTime := by
  have hdtls : UsesDtls ⟨s.ctx, { code := cid } :: script, []⟩ := h.dtls
  rw [Timeline.sending, hdtls.send_eq] at hsend
  exact sendDtls_lastSendTime hsend

theorem Tracks.step_read {s s' : Timeline} {seconds length : Nat} {script : List Answer}
    (h : Tracks s) (hstep : timeline.step s (.read seconds length script) = some s') :
    Tracks s' := by
  have hkeeps := usesDtls_keptByTraffic.keeps_uisoNetworkRead length
  have huses : UsesDtls ⟨s.ctx, script, []⟩ := h.dtls
  simp only [timeline, Timeline.step] at hstep
  split at hstep
  · cases hstep
  cases hread : uisoNetworkRead length ⟨s.ctx, script, []⟩ with
  | returned ret w =>
      rw [hread] at hstep
      obtain rfl := Option.some.inj hstep
      have hdtls : UsesDtls w := hkeeps.returned huses hread
      exact (h.advance seconds).withCtx hdtls (h.read hread)
  | waiting w =>
      rw [hread] at hstep
      obtain rfl := Option.some.inj hstep
      have hdtls : UsesDtls w := hkeeps.waiting huses hread
      exact ⟨hdtls, fun hhung => by cases hhung⟩

theorem Tracks.step_send {s s' : Timeline} {seconds length : Nat} {cid : Int}
    {script : List Answer} (h : Tracks s)
    (hstep : timeline.step s (.send seconds length cid script) = some s') : Tracks s' := by
  have hkeeps := usesDtls_keptByTraffic.keeps_uisoNetworkSend s.sntp.rtc
    (s.sntp.rtc + UInt32.ofNat seconds) length
  have huses : UsesDtls ⟨s.ctx, { code := cid } :: script, []⟩ := h.dtls
  simp only [timeline, Timeline.step] at hstep
  split at hstep
  · cases hstep
  cases hsend : s.sending seconds length cid script with
  | returned ret w =>
      have hdtls : UsesDtls w := hkeeps.returned huses hsend
      have htime := h.sending hsend
      rw [hsend] at hstep
      dsimp only at hstep
      split at hstep
      · rename_i hret
        obtain rfl := Option.some.inj hstep
        refine ⟨hdtls, fun _ => ?_⟩
        rw [if_pos hret] at htime
        simp only [htime, Timeline.advance]
        have hrtc := (s.sntp.rtc + UInt32.ofNat seconds).toNat_lt
        omega
      · rename_i hret
        obtain rfl := Option.some.inj hstep
        rw [if_neg hret] at htime
        exact (h.advance seconds).withCtx hdtls htime
  | waiting w =>
      rw [hsend] at hstep
      obtain rfl := Option.some.inj hstep
      have hdtls : UsesDtls w := hkeeps.waiting huses hsend
      exact ⟨hdtls, fun hhung => by cases hhung⟩

theorem Tracks.step {s s' : Timeline} {m : Moment} (h : Tracks s)
    (hstep : timeline.step s m = some s') : Tracks s' := by
  cases m with
  | pass seconds =>
      obtain rfl := Option.some.inj hstep
      exact h.advance seconds
  | sntpRequest server interval answers =>
      obtain rfl := Option.some.inj hstep
      refine ⟨h.dtls, fun hhung => ?_⟩
      obtain ⟨hle, hclock⟩ := h.clock hhung
      have hrtc := UInt32.toNat_lt
        (Sntp.uisoSntpRequest (some server) (some interval) answers s.sntp).world.rtc
      refine ⟨hle, ?_⟩
      dsimp only
      omega
  | read seconds length script => exact h.step_read hstep
  | send seconds length cid script => exact h.step_send hstep

/-- A renegotiation is attempted only more than 120 s after the last successful send. -/
def RenegotiatesLate (s : Timeline) (m : Moment) : Prop :=
  Attempts s m → 120 < s.real - s.lastSend

instance (s : Timeline) (m : Moment) : Decidable (RenegotiatesLate s m) :=
  inferInstanceAs (Decidable (_ → _))

/-- A send within 120 s of the last successful one comes after steps of the RTC that do not
make it look later. -/
def StepsHarmless (s : Timeline) : Moment → Prop
  | .send _ _ _ _ =>
      s.real - s.lastSend ≤ 120 → (((s.real - s.lastSend : Nat) : Int) + s.stepped) % 2 ^ 32 ≤ 120
  | _ => True

instance (s : Timeline) : ∀ m, Decidable (StepsHarmless s m)
  | .send _ _ _ _ => inferInstanceAs (Decidable (_ → _))
  | .pass _ | .sntpRequest _ _ _ | .read _ _ _ => .isTrue trivial

theorem renegotiatesLate_iff {s s' : Timeline} {m : Moment} (h : Tracks s)
    (hstep : timeline.step s m = some s') : RenegotiatesLate s m ↔ StepsHarmless s m := by
  cases m with
  | pass seconds => exact iff_of_true (fun hattempt => hattempt.elim) trivial
  | sntpRequest server interval answers => exact iff_of_true (fun hattempt => hattempt.elim) trivial
  | read seconds length script => exact iff_of_true (fun hattempt => hattempt.elim) trivial
  | send seconds length cid script =>
      have hhung : s.hung = false := by
        by_contra hhung
        simp [timeline, Timeline.step, hhung] at hstep
      have hdtls : UsesDtls ⟨s.ctx, { code := cid } :: script, []⟩ := h.dtls
      have hattempts : Attempts s (.send seconds length cid script) ↔
          120 < s.sntp.rtc - s.ctx.lastSendTime := by
        rw [Attempts, Timeline.sending, hdtls.send_eq]
        exact sendDtls_attempts_iff _ _ _ _ _ _
      obtain ⟨hle, hclock⟩ := h.clock hhung
      have hrtc := s.sntp.rtc.toNat_lt
      have htime := s.ctx.lastSendTime.toNat_lt
      have hidle : 120 < s.sntp.rtc - s.ctx.lastSendTime ↔
          120 < (((s.real - s.lastSend : Nat) : Int) + s.stepped) % 2 ^ 32 := by
        rw [UInt32.lt_iff_toNat_lt, UInt32.toNat_sub]
        have h120 : (120 : UInt32).toNat = 120 := rfl
        rw [h120]
        omega
      simp only [RenegotiatesLate, StepsHarmless, hattempts, hidle]
      omega

/-! ## Runs from the opening -/

/-- A connection that is opened is stamped with the time of the RTC. -/
theorem triple_create_stamps (net : StackAnswers) (args : ConnectArgs) :
    Prog.Triple (fun _ => True) (uisoCreateNetworkConnection net args)
      (fun ret w => 0 ≤ ret → w.ctx.lastSendTime = net.time) fun _ => True := by
  have hkeeps : ∀ {m : Prog World Int}, Prog.Triple (fun _ => True) m (fun _ _ => True)
      fun _ => True := by
    intro m w _
    cases m w <;> trivial
  refine Prog.triple_bind hkeeps fun ret => Prog.triple_bind hkeeps fun ret => ?_
  refine Prog.triple_bind (Q := fun _ w => 0 ≤ ret → w.ctx.lastSendTime = net.time)
    (Prog.triple_modify fun w _ hret => ?_) fun _ => Prog.triple_pure fun _ h => h
  rw [if_pos hret]
  rfl

/-- `uiso_create_network_connection` has opened a DTLS context, whose time stamp is then that
of the RTC. -/
theorem create_opens {net : StackAnswers} {args : ConnectArgs} {before after : World} {ret : Int}
    (hproto : args.proto = .dtlsIp4)
    (hopen : uisoCreateNetworkConnection net args before = .returned ret after) (hret : 0 ≤ ret) :
    UsesDtls after ∧ after.ctx.lastSendTime = net.time := by
  have hfns : UsesDtls (prepareConnection net args before).2 := by
    have hprepared : UsesDtls ⟨preparedCtx args before.ctx, [], []⟩ := by
      rw [preparedCtx, hproto]
      exact ⟨rfl, rfl⟩
    by_cases hssl : SslReady args before.ctx
    · have hsetup := prepareConnection_setup net hssl
      exact ⟨hsetup.readFn.trans hprepared.1, hsetup.sendFn.trans hprepared.2⟩
    · rw [prepareConnection_of_not_ready hssl]
      exact hprepared
  refine ⟨?_, ?_⟩
  · exact (triple_create (usesDtls_keptByTraffic.calls .handshake) net args
      fun _ h => h).returned hfns hopen
  · exact (triple_create_stamps net args).returned trivial hopen hret

/-- A timeline where the opening of a context has just ended. -/
def Timeline.start (opened : World) (sntp : Sntp.World) (real : Nat) : Timeline :=
  ⟨opened.ctx, false, sntp, real, real, 0⟩

/-- In every run of reads and sends on a DTLS context from its opening on, with steps of the
RTC in between, each renegotiation comes more than 120 s after the last successful send
precisely if no send within 120 s comes after steps that make it look later. -/
theorem renegotiation_late_iff (net : StackAnswers) (args : ConnectArgs) (before after : World)
    (ret : Int) (sntp : Sntp.World) (real : Nat) (ms : List Moment)
    (hproto : args.proto = .dtlsIp4)
    (hopen : uisoCreateNetworkConnection net args before = .returned ret after) (hret : 0 ≤ ret)
    (htime : net.time = sntp.rtc) :
    timeline.Guarded RenegotiatesLate (.start after sntp real) ms ↔
      timeline.Guarded StepsHarmless (.start after sntp real) ms := by
  obtain ⟨hdtls, hstamp⟩ := create_opens hproto hopen hret
  have hrtc := sntp.rtc.toNat_lt
  have hstart : Tracks (.start after sntp real) := by
    refine ⟨hdtls, fun _ => ⟨Nat.le_refl real, ?_⟩⟩
    simp only [Timeline.start, hstamp, htime]
    omega
  exact Machine.guarded_iff_of_kept (fun _ _ _ h => h.step) (fun _ _ _ h => renegotiatesLate_iff h)
    hstart

/-- The second connection of a context that was used for DTLS before, opened with the RTC at
1700000000. -/
def opened : World :=
  reached (uisoCreateNetworkConnection { goodStack 1 with time := 1700000000 }
    ⟨"coap.me", "5684", none, .dtlsIp4⟩ ⟨usedDtlsCtx, [{ code := 0 }], []⟩)

/-- Four bytes, sent in a second. -/
def sendFour : Moment := .send 1 4 0 [{ code := 4 }]

/-- A request whose reply sets the RTC to 1700001000 when it is at 1700000000. -/
def setAhead : Moment :=
  .sntpRequest (.initial none) 0
    (Sntp.answersWith 0x0A000001 (Sntp.serverReply (rev 0x0A000001) 0x24 2 3908988800 3908989800))

theorem renegotiation_late_iff_unstepped :
    timeline.Guarded RenegotiatesLate (.start opened (.initial 1700000000) 0)
      [sendFour, .pass 120, sendFour] :=
  (renegotiation_late_iff { goodStack 1 with time := 1700000000 }
    ⟨"coap.me", "5684", none, .dtlsIp4⟩ ⟨usedDtlsCtx, [{ code := 0 }], []⟩ opened 0
    (.initial 1700000000) 0 [sendFour, .pass 120, sendFour] rfl rfl (by decide) rfl).mpr
    (by decide +kernel)

/-- The RTC is set between the opening and the first send, which renegotiates at once. -/
theorem renegotiation_after_step :
    ¬∀ (net : StackAnswers) (args : ConnectArgs) (before after : World) (ret : Int)
      (sntp : Sntp.World) (real : Nat) (ms : List Moment), args.proto = .dtlsIp4 →
      uisoCreateNetworkConnection net args before = .returned ret after → 0 ≤ ret →
      net.time = sntp.rtc → timeline.Guarded RenegotiatesLate (.start after sntp real) ms := by
  intro h
  have hlate := h { goodStack 1 with time := 1700000000 } ⟨"coap.me", "5684", none, .dtlsIp4⟩
    ⟨usedDtlsCtx, [{ code := 0 }], []⟩ opened 0 (.initial 1700000000) 0 [setAhead, sendFour] rfl
    rfl (by decide) rfl
  revert hlate
  decide +kernel

end Uiso.Network
