/-
  Network/Continuity.lean --- when reading and sending leave a DTLS session
  alone.

  `_read_dtls` and `_send_dtls` each have their own list of codes for which an
  mbedTLS call is made again; any other error closes the session, resets it and
  performs a new handshake.  Two codes that only mean "not yet" are missing: the
  read loop does not list `WANT_READ` and the renegotiation loop does not list
  `ASYNC_IN_PROGRESS`.

  The proofs follow three kinds of worlds.  CLEAN: no such code was returned and
  nothing was torn down.  STOPPED: such a code was returned.  LOST: the tear-down
  after it has begun, or mbedTLS has reported a real error, about which nothing
  is said.
-/
import Uiso.Network.Transfer

set_option autoImplicit false

namespace Uiso.Network

open Uiso.Foundation

/-! ## Reading the trace -/

/-- The results that only mean "not yet". -/
def wouldBlock (code : Int) : Bool :=
  code == mbedtlsErrSslWantRead || code == mbedtlsErrSslWantWrite ||
    code == mbedtlsErrSslAsyncInProgress || code == mbedtlsErrSslCryptoInProgress

/-- A call reports success: a number of bytes for reads and writes, else zero. -/
def succeeded : SslCall → Int → Bool
  | .read _, code => 0 ≤ code
  | .write _ _, code => 0 ≤ code
  | _, code => code == 0

/-- mbedTLS reports an error that is neither a success nor a "not yet". -/
def isFatal : NetEvent → Bool
  | .sslReturn call code => !(succeeded call code || wouldBlock code)
  | _ => false

/-- The session is closed, reset or negotiated anew; a renegotiation counts
unless more than 120 s have passed since the last send. -/
def isTeardown : NetEvent → Bool
  | .sslCall .closeNotify => true
  | .sslCall .sessionReset => true
  | .sslCall .handshake => true
  | .sslCall (.renegotiate idle) => idle ≤ 120
  | _ => false

/-- A "not yet" that the loop around the call does not list. -/
def isUnlisted : NetEvent → Bool
  | .sslReturn (.read _) code => code == mbedtlsErrSslWantRead
  | .sslReturn (.renegotiate _) code => code == mbedtlsErrSslAsyncInProgress
  | _ => false

/-- An event of a kind has happened. -/
def World.saw (w : World) (kind : NetEvent → Bool) : Prop := w.trace.any kind = true

instance (w : World) (kind : NetEvent → Bool) : Decidable (w.saw kind) :=
  inferInstanceAs (Decidable (_ = _))

theorem World.saw_emit (w : World) (kind : NetEvent → Bool) (e : NetEvent) :
    (w.emit e).saw kind ↔ w.saw kind ∨ kind e = true := by
  simp [World.saw]

/-- A kind of events that no transport callback causes. -/
structure NoTransport (kind : NetEvent → Bool) : Prop where
  sendTo : ∀ sd payload length dest result, kind (.sendTo sd payload length dest result) = false
  send : ∀ sd payload length result, kind (.send sd payload length result) = false
  recvFrom : ∀ sd length source result, kind (.recvFrom sd length source result) = false
  recv : ∀ sd length result, kind (.recv sd length result) = false

theorem noTransport_isUnlisted : NoTransport isUnlisted :=
  ⟨fun _ _ _ _ _ => rfl, fun _ _ _ _ => rfl, fun _ _ _ _ => rfl, fun _ _ _ => rfl⟩

theorem noTransport_isTeardown : NoTransport isTeardown :=
  ⟨fun _ _ _ _ _ => rfl, fun _ _ _ _ => rfl, fun _ _ _ _ => rfl, fun _ _ _ => rfl⟩

theorem NoTransport.saw_bioAct {kind : NetEvent → Bool} (hkind : NoTransport kind) (w : World)
    (act : BioAct) : (w.bioAct act).saw kind ↔ w.saw kind := by
  unfold World.bioAct
  split
  · rw [sendBioUdp, World.saw_emit, hkind.sendTo]
    simp
  · rw [recvBioUdp, World.saw_emit, hkind.recvFrom]
    simp [World.saw]
  · rw [sendBioTcp, World.saw_emit, hkind.send]
    simp
  · rw [recvBioTcp, World.saw_emit, hkind.recv]
    simp
  · exact Iff.rfl

/-- What an mbedTLS call adds to the events seen: its call and its return. -/
theorem NoTransport.saw_afterSsl {kind : NetEvent → Bool} (hkind : NoTransport kind) (w : World)
    (call : SslCall) (a : Answer) :
    (w.afterSsl call a).saw kind ↔
      w.saw kind ∨ kind (.sslCall call) = true ∨ kind (.sslReturn call a.code) = true := by
  have hacts := World.bioActs_keep
    (I := fun w' => w'.saw kind ↔ w.saw kind ∨ kind (.sslCall call) = true)
    (fun w' act h => (hkind.saw_bioAct w' act).trans h) a.bio (w.emit (.sslCall call))
    (World.saw_emit w kind _)
  rw [World.afterSsl, World.saw_emit, hacts, or_assoc]

/-! ## The three kinds of worlds -/

/-- No unlisted code was returned and nothing was torn down. -/
def Clean (w : World) : Prop := ¬ w.saw isUnlisted ∧ ¬ w.saw isTeardown

/-- An unlisted code was returned. -/
def Stopped (w : World) : Prop := w.saw isUnlisted

/-- A tear-down has followed an unlisted code, or mbedTLS reported an error. -/
def Lost (w : World) : Prop := w.saw isFatal ∨ (w.saw isUnlisted ∧ w.saw isTeardown)

theorem Lost.emit {w : World} (h : Lost w) (e : NetEvent) : Lost (w.emit e) := by
  unfold Lost at *
  rw [World.saw_emit, World.saw_emit, World.saw_emit]
  rcases h with h | ⟨h, h'⟩
  · exact .inl (.inl h)
  · exact .inr ⟨.inl h, .inl h'⟩

theorem lost_keptByTraffic : KeptByTraffic Lost where
  script := fun _ _ h => h
  sendBioUdp := fun _ _ _ _ h => h.emit _
  sendBioTcp := fun _ _ _ _ h => h.emit _
  recvBioUdp := fun w _ _ _ h => Lost.emit (w := w.setCtx _) h _
  recvBioTcp := fun _ _ _ h => h.emit _
  sslCall := fun _ _ h => h.emit _
  sslReturn := fun _ _ _ h => h.emit _
  sent := fun _ _ h => h

/-- Between calls a world is clean or lost. -/
def CleanOrLost (w : World) : Prop := Clean w ∨ Lost w

/-- A tear-down after an unlisted code. -/
theorem Stopped.lost {w : World} (h : Stopped w) {call : SslCall}
    (hcall : isTeardown (.sslCall call) = true) : Lost (w.emit (.sslCall call)) := by
  unfold Lost
  rw [World.saw_emit, World.saw_emit, World.saw_emit]
  exact .inr ⟨.inl h, .inr hcall⟩

theorem Stopped.lost_afterSsl {w : World} (h : Stopped w) {call : SslCall}
    (hcall : isTeardown (.sslCall call) = true) (a : Answer) : Lost (w.afterSsl call a) := by
  refine .inr ⟨?_, ?_⟩
  · exact (noTransport_isUnlisted.saw_afterSsl w call a).mpr (.inl h)
  · exact (noTransport_isTeardown.saw_afterSsl w call a).mpr (.inr (.inl hcall))

theorem lost_of_fatal {w : World} {call : SslCall} {a : Answer}
    (h : isFatal (.sslReturn call a.code) = true) : Lost (w.afterSsl call a) := by
  refine .inl ?_
  rw [World.afterSsl, World.saw_emit]
  exact .inr h

theorem Clean.emit {w : World} (h : Clean w) {call : SslCall}
    (hcall : isTeardown (.sslCall call) = false) : Clean (w.emit (.sslCall call)) := by
  unfold Clean
  rw [World.saw_emit, World.saw_emit, hcall]
  exact ⟨by simpa [isUnlisted] using h.1, by simpa using h.2⟩

theorem Clean.afterSsl {w : World} (h : Clean w) {call : SslCall} {a : Answer}
    (hcall : isTeardown (.sslCall call) = false)
    (hreturn : isUnlisted (.sslReturn call a.code) = false) : Clean (w.afterSsl call a) := by
  unfold Clean
  rw [noTransport_isUnlisted.saw_afterSsl, noTransport_isTeardown.saw_afterSsl, hcall, hreturn]
  exact ⟨by simpa [isUnlisted] using h.1, by simpa [isTeardown] using h.2⟩

theorem stopped_of_unlisted {w : World} {call : SslCall} {a : Answer}
    (h : isUnlisted (.sslReturn call a.code) = true) : Stopped (w.afterSsl call a) :=
  (noTransport_isUnlisted.saw_afterSsl w call a).mpr (.inr (.inr h))

/-! ## Calls, from a clean world -/

/-- A call that is no tear-down, from a clean world. -/
theorem triple_call_clean {call : SslCall} (hcall : isTeardown (.sslCall call) = false) :
    Prog.Triple Clean (sslCall call)
      (fun a w =>
        (isUnlisted (.sslReturn call a.code) = false ∧ Clean w ∧
          (isFatal (.sslReturn call a.code) = true → Lost w)) ∨
        (isUnlisted (.sslReturn call a.code) = true ∧ Stopped w)) CleanOrLost := by
  refine triple_sslCall (fun w h => .inl (h.emit hcall)) fun w a rest h => ?_
  cases hreturn : isUnlisted (.sslReturn call a.code) with
  | false =>
      have hclean : Clean (World.afterSsl { w with script := rest } call a) :=
        Clean.afterSsl (w := { w with script := rest }) h hcall hreturn
      exact .inl ⟨rfl, hclean, lost_of_fatal⟩
  | true => exact .inr ⟨rfl, stopped_of_unlisted hreturn⟩

/-- A loop around such a call that does not list the unlisted code: it ends
clean with a success, or with the unlisted code, or lost. -/
theorem triple_retry_clean (again : Int → Bool) (call : SslCall)
    (hcall : isTeardown (.sslCall call) = false)
    (hagain : ∀ code, isUnlisted (.sslReturn call code) = true → again code = false) :
    Prog.Triple Clean (sslRetry again call)
      (fun code w =>
        (isFatal (.sslReturn call code) = false ∧ again code = false ∧
          isUnlisted (.sslReturn call code) = false ∧ Clean w) ∨
        (isUnlisted (.sslReturn call code) = true ∧ Stopped w) ∨ Lost w) CleanOrLost := by
  have hround : Prog.Triple Clean (sslCall call)
      (fun a w => if again a.code = true then Clean w else
        (isFatal (.sslReturn call a.code) = false ∧ again a.code = false ∧
          isUnlisted (.sslReturn call a.code) = false ∧ Clean w) ∨
        (isUnlisted (.sslReturn call a.code) = true ∧ Stopped w) ∨ Lost w) CleanOrLost := by
    refine (triple_call_clean hcall).mono (fun _ h => h) ?_ fun _ h => h
    intro a w h
    cases hcode : again a.code with
    | true =>
        rcases h with ⟨_, hclean, _⟩ | ⟨hunlisted, _⟩
        · exact hclean
        · simp [hagain _ hunlisted] at hcode
    | false =>
        rcases h with ⟨hlisted, hclean, hfatal⟩ | ⟨hunlisted, hstopped⟩
        · cases hf : isFatal (.sslReturn call a.code) with
          | false => exact .inl ⟨rfl, rfl, hlisted, hclean⟩
          | true => exact .inr (.inr (hfatal hf))
        · exact .inr (.inl ⟨hunlisted, hstopped⟩)
  exact triple_sslRetry hround hround fun _ h => .inl h

/-! ## Tear-downs, from a stopped world -/

/-- The first call of a tear-down loses the world. -/
theorem triple_teardown {call : SslCall} (hcall : isTeardown (.sslCall call) = true) :
    Prog.Triple Stopped (sslCall call) (fun _ => Lost) Lost :=
  triple_sslCall (fun _ h => h.lost hcall)
    fun w a rest h => Stopped.lost_afterSsl (w := { w with script := rest }) h hcall a

theorem triple_restartSession_stopped :
    Prog.Triple Stopped restartSession (fun _ => Lost) Lost := by
  have hkept := lost_keptByTraffic.otherCalls
  have hfirst : Prog.Triple Stopped (sslRetry wantsIo .closeNotify) (fun _ => Lost) Lost := by
    refine triple_sslRetry (I := Lost) ?_ ?_ fun _ h => h
    · exact (triple_teardown rfl).mono (fun _ h => h) (fun _ _ h => by simpa using h) fun _ h => h
    · exact (hkept _ rfl).keeps_sslCall.mono (fun _ h => h) (fun _ _ h => by simpa using h)
        fun _ h => h
  refine Prog.triple_bind hfirst fun _ => ?_
  refine Prog.keeps_bind (hkept _ rfl).keeps_sslCall fun reset => ?_
  exact keeps_handshakeAfter hkept _

theorem triple_recoverRenegotiation_stopped {ret : Int} (hret : ret ≠ 0) :
    Prog.Triple Stopped (recoverRenegotiation ret) (fun _ => Lost) Lost := by
  have hkept := lost_keptByTraffic.otherCalls
  unfold recoverRenegotiation
  rw [if_neg hret]
  refine Prog.triple_bind (triple_teardown rfl) fun closed => ?_
  refine Prog.keeps_bind (hkept _ rfl).keeps_sslCall fun reset => ?_
  exact keeps_handshakeAfter hkept _

/-- A program that keeps lost worlds lost may be proved from clean ones. -/
theorem keeps_cleanOrLost {α : Type} {m : Prog World α} (hlost : Prog.Keeps Lost m)
    (hclean : Prog.Triple Clean m (fun _ => CleanOrLost) CleanOrLost) :
    Prog.Keeps CleanOrLost m :=
  Prog.triple_or hclean (hlost.mono (fun _ h => h) (fun _ _ h => .inr h) fun _ h => .inr h)

/-- A program that loses the world ends clean or lost. -/
theorem triple_cleanOrLost {α : Type} {P : World → Prop} {m : Prog World α}
    (h : Prog.Triple P m (fun _ => Lost) Lost) :
    Prog.Triple P m (fun _ => CleanOrLost) CleanOrLost :=
  h.mono (fun _ h => h) (fun _ _ h => .inr h) fun _ h => .inr h

/-! ## Reading -/

/-- `WANT_READ` is not among the codes for which the read is made again. -/
theorem readAgain_unlisted (length : Nat) (code : Int)
    (h : isUnlisted (.sslReturn (.read length) code) = true) : readAgain code = false := by
  obtain rfl : code = mbedtlsErrSslWantRead := by simpa [isUnlisted] using h
  decide

/-- Every other "not yet" is, so the loop ends with a number of bytes. -/
theorem read_done {length : Nat} {code : Int}
    (hfatal : isFatal (.sslReturn (.read length) code) = false) (hdone : readAgain code = false)
    (hlisted : isUnlisted (.sslReturn (.read length) code) = false) : 0 ≤ code := by
  simp only [isFatal, succeeded, wouldBlock, readAgain, isUnlisted, Bool.not_eq_false',
    Bool.or_eq_true, Bool.or_eq_false_iff, beq_iff_eq, beq_eq_false_iff_ne,
    decide_eq_true_eq] at hfatal hdone hlisted
  omega

theorem cleanOrLost_readDtls (length : Nat) : Prog.Keeps CleanOrLost (readDtls length) := by
  refine keeps_cleanOrLost (keeps_readDtls lost_keptByTraffic.otherCalls length) ?_
  refine Prog.triple_bind
    (triple_retry_clean readAgain (.read length) rfl (readAgain_unlisted length)) fun numBytes => ?_
  refine Prog.triple_bind (Q := fun _ => CleanOrLost) ?_ fun _ => Prog.triple_pure fun _ h => h
  rintro w (⟨hfatal, hdone, hlisted, hclean⟩ | ⟨hunlisted, hstopped⟩ | hlost)
  · have hnonneg := read_done hfatal hdone hlisted
    rw [recoverRead, if_neg (by omega)]
    exact .inl hclean
  · have hcode : numBytes = mbedtlsErrSslWantRead := by simpa [isUnlisted] using hunlisted
    rw [recoverRead, if_pos (by rw [hcode]; decide)]
    exact triple_cleanOrLost triple_restartSession_stopped w hstopped
  · exact triple_cleanOrLost (keeps_recoverRead lost_keptByTraffic.otherCalls numBytes) w hlost

/-! ## Sending -/

theorem renegotiateAgain_unlisted (idle : UInt32) (code : Int)
    (h : isUnlisted (.sslReturn (.renegotiate idle) code) = true) :
    renegotiateAgain code = false := by
  obtain rfl : code = mbedtlsErrSslAsyncInProgress := by simpa [isUnlisted] using h
  decide

theorem renegotiate_done {idle : UInt32} {code : Int}
    (hfatal : isFatal (.sslReturn (.renegotiate idle) code) = false)
    (hdone : renegotiateAgain code = false)
    (hlisted : isUnlisted (.sslReturn (.renegotiate idle) code) = false) : code = 0 := by
  simp only [isFatal, succeeded, wouldBlock, renegotiateAgain, isUnlisted, Bool.not_eq_false',
    Bool.or_eq_true, Bool.or_eq_false_iff, beq_iff_eq, beq_eq_false_iff_ne] at hfatal hdone hlisted
  omega

theorem cleanOrLost_renegotiate {idle : UInt32} (hidle : 120 < idle) :
    Prog.Keeps CleanOrLost (renegotiate idle) := by
  have hcall : isTeardown (.sslCall (.renegotiate idle)) = false := by
    simpa [isTeardown] using hidle
  refine keeps_cleanOrLost (keeps_renegotiate lost_keptByTraffic.otherCalls
    (lost_keptByTraffic.calls _)) ?_
  refine Prog.triple_bind (triple_retry_clean renegotiateAgain (.renegotiate idle) hcall
    (renegotiateAgain_unlisted idle)) fun ret => ?_
  refine Prog.triple_bind (Q := fun _ => CleanOrLost) ?_ fun _ => Prog.triple_pure fun _ h => h
  rintro w (⟨hfatal, hdone, hlisted, hclean⟩ | ⟨hunlisted, hstopped⟩ | hlost)
  · rw [recoverRenegotiation, if_pos (renegotiate_done hfatal hdone hlisted)]
    exact .inl hclean
  · have hcode : ret = mbedtlsErrSslAsyncInProgress := by simpa [isUnlisted] using hunlisted
    have hret : ret ≠ 0 := by
      rw [hcode]
      decide
    exact triple_cleanOrLost (triple_recoverRenegotiation_stopped hret) w hstopped
  · exact triple_cleanOrLost (keeps_recoverRenegotiation lost_keptByTraffic.otherCalls ret) w hlost

/-- A call that has no unlisted codes keeps a clean world clean. -/
theorem triple_call (call : SslCall) (hcall : isTeardown (.sslCall call) = false)
    (hlisted : ∀ code, isUnlisted (.sslReturn call code) = false) :
    Prog.Triple CleanOrLost (sslCall call)
      (fun a w => (Clean w ∧ isFatal (.sslReturn call a.code) = false) ∨ Lost w) CleanOrLost := by
  refine Prog.triple_or ?_ ?_
  · refine (triple_call_clean hcall).mono (fun _ h => h) ?_ fun _ h => h
    rintro a w (⟨_, hclean, hfatal⟩ | ⟨hunlisted, _⟩)
    · cases hf : isFatal (.sslReturn call a.code) with
      | false => exact .inl ⟨hclean, rfl⟩
      | true => exact .inr (hfatal hf)
    · simp [hlisted] at hunlisted
  · exact ((lost_keptByTraffic.calls call).keeps_sslCall).mono (fun _ h => h) (fun _ _ h => .inr h)
      fun _ h => .inr h

theorem cleanOrLost_prepareSend (now : UInt32) : Prog.Keeps CleanOrLost (prepareSend now) := by
  have hcid := (triple_call .getPeerCid rfl fun _ => rfl).mono (fun _ h => h)
    (fun _ _ h => h.imp And.left id) fun _ h => h
  refine Prog.triple_bind (Q := fun _ => CleanOrLost) hcid fun cid => ?_
  refine Prog.keeps_bind (Prog.keeps_lift fun _ h => h) fun last => ?_
  refine Prog.keeps_ite (fun _ => Prog.keeps_pure _) fun _ => ?_
  exact Prog.keeps_ite (fun hidle => cleanOrLost_renegotiate hidle) fun _ => Prog.keeps_pure _

/-- Every "not yet" of a write is listed, so an error that is not listed is a
real one. -/
theorem write_listed (offset length : Nat) {code : Int} (hneg : code < 0)
    (hagain : writeAgain code = false) :
    isFatal (.sslReturn (.write offset length) code) = true := by
  simp only [writeAgain, Bool.or_eq_false_iff, beq_eq_false_iff_ne] at hagain
  simp only [isFatal, succeeded, wouldBlock, Bool.not_eq_true', Bool.or_eq_false_iff,
    beq_eq_false_iff_ne, decide_eq_false_iff_not]
  omega

theorem cleanOrLost_writeAll (length : Nat) :
    ∀ rounds offset, Prog.Keeps CleanOrLost (writeAll length rounds offset) := by
  intro rounds
  induction rounds with
  | zero =>
      intro offset
      exact Prog.keeps_wait
  | succ rounds ih =>
      intro offset
      have hlost := lost_keptByTraffic.otherCalls
      refine Prog.keeps_ite (fun _ => Prog.keeps_pure _) fun _ => ?_
      refine Prog.triple_bind (triple_call (.write offset _) rfl fun _ => rfl) fun a => ?_
      refine Prog.triple_or ?_ ?_
      · -- clean: the branch that restarts the session is not taken
        rintro w ⟨hclean, hfatal⟩
        by_cases hagain : writeAgain a.code = true
        · rw [if_pos hagain]
          exact ih offset w (.inl hclean)
        rw [if_neg hagain]
        by_cases hneg : a.code < 0
        · have hreal := write_listed offset (sizeSub length offset) hneg (by simpa using hagain)
          rw [hreal] at hfatal
          exact absurd hfatal (by decide)
        · rw [if_neg hneg]
          exact ih _ w (.inl hclean)
      · refine triple_cleanOrLost (Prog.keeps_ite (fun _ => keeps_writeAll hlost _ _ _) fun _ => ?_)
        refine Prog.keeps_ite (fun _ => ?_) fun _ => keeps_writeAll hlost _ _ _
        refine Prog.keeps_bind (keeps_restartSession hlost) fun ret => ?_
        exact Prog.keeps_ite (fun _ => keeps_writeAll hlost _ _ _) fun _ => Prog.keeps_pure _

theorem cleanOrLost_sendDtls (now later : UInt32) (length : Nat) :
    Prog.Keeps CleanOrLost (sendDtls now later length) := by
  refine Prog.keeps_bind (cleanOrLost_prepareSend now) fun ret => ?_
  refine Prog.keeps_bind (Prog.keeps_ite (fun _ => ?_) fun _ => Prog.keeps_pure _) fun ret => ?_
  · exact fun w hw => cleanOrLost_writeAll length _ 0 w hw
  refine Prog.keeps_bind (Prog.keeps_modify fun w hw => ?_) fun _ => Prog.keeps_pure _
  split
  · exact hw
  · exact hw

/-! ## Runs of reads and sends -/

/-- The context is set up for secure reads and sends. -/
def UsesDtls (w : World) : Prop :=
  w.ctx.readFn = some .readDtls ∧ w.ctx.sendFn = some .sendDtls

instance (w : World) : Decidable (UsesDtls w) := inferInstanceAs (Decidable (_ ∧ _))

theorem usesDtls_keptByTraffic : KeptByTraffic UsesDtls where
  script := fun _ _ h => h
  sendBioUdp := fun _ _ _ _ h => h
  sendBioTcp := fun _ _ _ _ h => h
  recvBioUdp := fun _ _ _ _ h => h
  recvBioTcp := fun _ _ _ h => h
  sslCall := fun _ _ h => h
  sslReturn := fun _ _ _ h => h
  sent := fun _ _ h => h

theorem UsesDtls.read_eq {w : World} (h : UsesDtls w) (length : Nat) :
    uisoNetworkRead length w = readDtls length w := by
  unfold uisoNetworkRead
  rw [h.1]

theorem UsesDtls.send_eq {w : World} (h : UsesDtls w) (now later : UInt32) (length : Nat) :
    uisoNetworkSend now later length w = sendDtls now later length w := by
  unfold uisoNetworkSend
  rw [h.2]

/-- The request is a read or a send. -/
def IsTransfer : Request → Prop
  | ⟨.read _, _⟩ => True
  | ⟨.send _ _ _, _⟩ => True
  | _ => False

instance : ∀ req, Decidable (IsTransfer req)
  | ⟨.read _, _⟩ | ⟨.send _ _ _, _⟩ => .isTrue trivial
  | ⟨.register _, _⟩ | ⟨.create _ _, _⟩ | ⟨.close _, _⟩ => .isFalse id

/-- On a DTLS context a read is `_read_dtls` and a send `_send_dtls`, so both
keep it clean or lost. -/
theorem transfer_keeps {req : Request} (hreq : IsTransfer req) :
    Prog.Keeps (fun w => UsesDtls w ∧ CleanOrLost w) req.call.prog := by
  obtain ⟨call, script⟩ := req
  cases call with
  | read length =>
      rintro w ⟨huses, hw⟩
      have hkeeps := Prog.keeps_and (keeps_readDtls usesDtls_keptByTraffic.otherCalls length)
        (cleanOrLost_readDtls length) w ⟨huses, hw⟩
      rwa [← huses.read_eq] at hkeeps
  | send now later length =>
      rintro w ⟨huses, hw⟩
      have hkeeps := Prog.keeps_and (usesDtls_keptByTraffic.keeps_sendDtls now later length)
        (cleanOrLost_sendDtls now later length) w ⟨huses, hw⟩
      rwa [← huses.send_eq] at hkeeps
  | register ssl => exact hreq.elim
  | create net args => exact hreq.elim
  | close net => exact hreq.elim

/-! ## The result -/

/-- As long as mbedTLS reports only successes and "not yet", the session has
been left alone precisely if no call returned a code its loop does not list. -/
def SessionKeptIff (l : Link) : Prop :=
  ¬ l.world.saw isFatal → (¬ l.world.saw isTeardown ↔ ¬ l.world.saw isUnlisted)

instance (l : Link) : Decidable (SessionKeptIff l) := inferInstanceAs (Decidable (_ → (_ ↔ _)))

theorem CleanOrLost.sessionKeptIff {l : Link} (h : CleanOrLost l.world) : SessionKeptIff l := by
  intro hfatal
  rcases h with ⟨hunlisted, hteardown⟩ | hfatal' | ⟨hunlisted, hteardown⟩
  · exact iff_of_true hteardown hunlisted
  · exact absurd hfatal' hfatal
  · exact iff_of_false (fun h => h hteardown) fun h => h hunlisted

/-- In every run of reads and sends on a DTLS context, with whatever answers
mbedTLS gives, the session is kept in every state reached exactly as long as no
unlisted code has been returned. -/
theorem session_kept_iff_listed {ctx : NetworkCtx} {reqs : List Request}
    (hctx : UsesDtls (Link.start ctx).world)
    (hreqs : link.Guarded (fun _ req => IsTransfer req) (Link.start ctx) reqs) :
    link.Always SessionKeptIff (Link.start ctx) reqs := by
  have hstart : CleanOrLost (Link.start ctx).world := by
    refine .inl ⟨?_, ?_⟩ <;> simp [Link.start, World.saw]
  refine Machine.always_of_guarded (I := fun l => UsesDtls l.world ∧ CleanOrLost l.world)
    ?_ (fun _ h => h.2.sessionKeptIff) ⟨hctx, hstart⟩ hreqs
  intro l req l' h hreq hstep
  exact Link.step_keeps (fun _ _ h => h) (transfer_keeps hreq) h hstep

/-- A DTLS context whose session was used at time 1000. -/
def dtlsCtx : NetworkCtx :=
  { initializeNetworkCtx with
    protocol := .dtlsIp4, sd := 1, readFn := some .readDtls, sendFn := some .sendDtls,
    sslContext := some ⟨some .udp, 1472⟩, lastSendTime := 1000 }

/-- A read and a send after a long pause, with a renegotiation that waits once. -/
theorem session_kept_iff_listed_renegotiation :
    link.Always SessionKeptIff (Link.start dtlsCtx)
      [⟨.read 64, [{ code := mbedtlsErrSslWantWrite }, { code := 4 }]⟩,
        ⟨.send 1200 1201 4, [{ code := 0 }, { code := mbedtlsErrSslWantRead }, { code := 0 },
          { code := mbedtlsErrSslAsyncInProgress }, { code := 4 }]⟩] :=
  session_kept_iff_listed (by decide) (by decide)

/-- A read finds no data: `_recv_bio_udp` turns `SL_EAGAIN` into `WANT_READ`,
and `_read_dtls` closes the session. -/
theorem read_without_data_closes_session :
    ¬ ∀ (ctx : NetworkCtx) (reqs : List Request), UsesDtls (Link.start ctx).world →
      link.Guarded (fun _ req => IsTransfer req) (Link.start ctx) reqs →
      link.Always (fun l => ¬ l.world.saw isFatal → ¬ l.world.saw isTeardown)
        (Link.start ctx) reqs := by
  intro h
  have hrun := h dtlsCtx
    [⟨.read 64, [{ code := mbedtlsErrSslWantRead, bio := [.recv 64 ⟨0, 0, 0⟩ slEagain] },
      { code := 0 }, { code := 0 }, { code := 0 }]⟩] (by decide)
    (by decide)
  revert hrun
  decide

end Uiso.Network
