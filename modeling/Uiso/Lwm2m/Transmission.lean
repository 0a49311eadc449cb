/-
  Lwm2m/Transmission.lean --- the send functions hand the transport the caller's
  buffer, each byte once and in order, or say that they did not.

  Three loops advance an offset by what the transport accepted.  The one of
  `_send_dtls` also survives would-block codes and errors after which the session
  is restarted, with one `ret` for all of its calls.  The invariant is the same
  for all three: the positions accepted so far are `0, 1, .., offset - 1`.

  The transport is assumed to accept no more than it was offered, and the other
  mbedTLS calls to return zero or a negative error (`Legal`).  Neither is assumed
  of a run in advance: `Progress` carries it as a premise on the events seen.
-/
import Uiso.Lwm2m.Connection

set_option autoImplicit false

namespace Uiso.Lwm2m

open Uiso.Foundation
open Uiso.Network

/-! ## Reading the trace -/

/-- The piece of the caller's buffer the transport accepted: where it starts and
how long it is. -/
def acceptedPiece : NetEvent → Option (Nat × Nat)
  | .sendTo _ (.app offset _) _ _ result => some (offset, result.toNat)
  | .send _ (.app offset _) _ result => some (offset, result.toNat)
  | .sslReturn (.write offset _) result => some (offset, result.toNat)
  | _ => none

/-- The pieces accepted, in order. -/
def acceptedPieces (t : List NetEvent) : List (Nat × Nat) := t.filterMap acceptedPiece

/-- The positions in the buffer that were accepted, in order. -/
def positions (t : List NetEvent) : List Nat :=
  (acceptedPieces t).flatMap fun piece => List.range' piece.1 piece.2

/-- The bytes that were accepted, in order. -/
def transmitted (buffer : List UInt8) (t : List NetEvent) : List UInt8 :=
  (acceptedPieces t).flatMap fun piece => (buffer.drop piece.1).take piece.2

/-- The transport accepts no more than it was offered; calls other than a write
return zero or an error. -/
def Legal : NetEvent → Prop
  | .sendTo _ (.app _ length) _ _ result => result ≤ length
  | .send _ (.app _ length) _ result => result ≤ length
  | .sslReturn (.write _ length) result => result ≤ length
  | .sslReturn _ result => result ≤ 0
  | _ => True

theorem positions_concat (t : List NetEvent) (e : NetEvent) :
    positions (t ++ [e]) =
      positions t ++ (acceptedPiece e).elim [] fun piece => List.range' piece.1 piece.2 := by
  unfold positions acceptedPieces
  rw [List.filterMap_append, List.flatMap_append]
  cases h : acceptedPiece e with
  | none => simp [h]
  | some piece => simp [h]

/-- Accepting the next piece. -/
theorem range_extend (offset n : Nat) :
    List.range offset ++ List.range' offset n = List.range (offset + n) := by
  have happend := List.range'_append_1 (s := 0) (m := offset) (n := n)
  rwa [Nat.zero_add, ← List.range_eq_range', ← List.range_eq_range'] at happend

/-! ## Progress -/

/-- Since the trace was `t`, and if all events since then are legal, the accepted
positions satisfy `Φ`. -/
def Progress (t : List NetEvent) (Φ : List Nat → Prop) (w : World) : Prop :=
  ∃ es, w.trace = t ++ es ∧ ((∀ e ∈ es, Legal e) → Φ (positions es))

namespace Progress

variable {t : List NetEvent} {Φ Ψ : List Nat → Prop} {w : World}

theorem mono (h : Progress t Φ w) (hΦ : ∀ ps, Φ ps → Ψ ps) : Progress t Ψ w := by
  obtain ⟨es, htrace, hes⟩ := h
  exact ⟨es, htrace, fun hlegal => hΦ _ (hes hlegal)⟩

/-- One more event. -/
theorem emit (h : Progress t Φ w) (e : NetEvent)
    (hΨ : ∀ ps, Φ ps → Legal e →
      Ψ (ps ++ (acceptedPiece e).elim [] fun piece => List.range' piece.1 piece.2)) :
    Progress t Ψ (w.emit e) := by
  obtain ⟨es, htrace, hes⟩ := h
  refine ⟨es ++ [e], by rw [World.emit_trace, htrace, List.append_assoc], fun hlegal => ?_⟩
  rw [positions_concat]
  refine hΨ _ (hes fun e' he' => hlegal e' ?_) (hlegal e ?_)
  · exact List.mem_append_left _ he'
  · exact List.mem_append_right _ (List.mem_singleton_self e)

/-- An event that is not about the caller's buffer. -/
theorem emit_other (h : Progress t Φ w) {e : NetEvent} (he : acceptedPiece e = none) :
    Progress t Φ (w.emit e) := by
  refine h.emit e fun ps hps _ => ?_
  rw [he]
  simpa using hps

theorem bioAct (h : Progress t Φ w) (act : BioAct) : Progress t Φ (w.bioAct act) := by
  unfold World.bioAct
  split
  · exact h.emit_other rfl
  · exact Progress.emit_other (w := w.setCtx _) h rfl
  · exact h.emit_other rfl
  · exact h.emit_other rfl
  · exact h

/-- An mbedTLS call: only its return counts. -/
theorem afterSsl (h : Progress t Φ w) (call : SslCall) (a : Answer)
    (hΨ : ∀ ps, Φ ps → Legal (.sslReturn call a.code) →
      Ψ (ps ++ (acceptedPiece (.sslReturn call a.code)).elim []
        fun piece => List.range' piece.1 piece.2)) :
    Progress t Ψ (w.afterSsl call a) :=
  (World.bioActs_keep (I := Progress t Φ) (fun _ act h => h.bioAct act) a.bio _
    (h.emit_other rfl)).emit _ hΨ

end Progress

/-- Nothing was accepted yet. -/
theorem progress_start (w : World) : Progress w.trace (fun ps => ps = []) w :=
  ⟨[], (List.append_nil _).symm, fun _ => rfl⟩

/-! ## The calls around the writes -/

section Calls

variable {t : List NetEvent} {Φ : List Nat → Prop}

/-- A call that writes nothing returns zero or an error. -/
theorem triple_otherCall (call : SslCall)
    (hpiece : ∀ code, acceptedPiece (.sslReturn call code) = none)
    (hlegal : ∀ code, Legal (.sslReturn call code) → code ≤ 0) :
    Prog.Triple (Progress t Φ) (sslCall call)
      (fun a => Progress t fun ps => Φ ps ∧ a.code ≤ 0) fun _ => True := by
  refine triple_sslCall (fun _ _ => trivial) fun w a rest h => ?_
  have h' : Progress t Φ { w with script := rest } := h
  refine h'.afterSsl call a fun ps hps hreturn => ?_
  rw [hpiece]
  exact ⟨by simpa using hps, hlegal _ hreturn⟩

theorem triple_otherRetry (again : Int → Bool) (call : SslCall)
    (hpiece : ∀ code, acceptedPiece (.sslReturn call code) = none)
    (hlegal : ∀ code, Legal (.sslReturn call code) → code ≤ 0) :
    Prog.Triple (Progress t Φ) (sslRetry again call)
      (fun code => Progress t fun ps => Φ ps ∧ code ≤ 0) fun _ => True := by
  have hround : Prog.Triple (Progress t Φ) (sslCall call)
      (fun a w => if again a.code = true then Progress t Φ w
        else Progress t (fun ps => Φ ps ∧ a.code ≤ 0) w) fun _ => True := by
    refine (triple_otherCall call hpiece hlegal).mono (fun _ h => h) ?_ fun _ h => h
    intro a w h
    split
    · exact h.mono fun _ hps => hps.1
    · exact h
  exact triple_sslRetry hround hround fun _ _ => trivial

/-- A handshake after a code that was zero or an error. -/
theorem triple_handshakeAfter (ret : Int) :
    Prog.Triple (Progress t fun ps => Φ ps ∧ ret ≤ 0) (handshakeAfter ret)
      (fun code => Progress t fun ps => Φ ps ∧ code ≤ 0) fun _ => True := by
  unfold handshakeAfter
  split
  · refine (triple_otherRetry wantsIo .handshake (fun _ => rfl) fun _ h => h).mono ?_
      (fun _ _ h => h)
      fun _ h => h
    exact fun _ h => h.mono fun _ hps => hps.1
  · exact Prog.triple_pure fun _ h => h

theorem triple_restartSession :
    Prog.Triple (Progress t Φ) restartSession
      (fun code => Progress t fun ps => Φ ps ∧ code ≤ 0) fun _ => True := by
  refine Prog.triple_bind (Q := fun _ => Progress t Φ) ?_ fun _ => ?_
  · refine (triple_otherRetry wantsIo .closeNotify (fun _ => rfl) fun _ h => h).mono
      (fun _ h => h) ?_
      fun _ h => h
    exact fun _ _ h => h.mono fun _ hps => hps.1
  · refine Prog.triple_bind (triple_otherCall .sessionReset (fun _ => rfl) fun _ h => h)
      fun reset => ?_
    exact triple_handshakeAfter reset.code

theorem triple_recoverRenegotiation (ret : Int) :
    Prog.Triple (Progress t Φ) (recoverRenegotiation ret)
      (fun _ => Progress t Φ) fun _ => True := by
  unfold recoverRenegotiation
  split
  · exact Prog.triple_pure fun _ h => h
  refine Prog.triple_bind (triple_otherCall .closeNotify (fun _ => rfl) fun _ h => h)
    fun closed => ?_
  refine Prog.triple_bind (triple_otherCall .sessionReset (fun _ => rfl) fun _ h => h)
    fun reset => ?_
  refine (triple_handshakeAfter (t := t) (Φ := Φ) _).mono ?_ ?_ fun _ h => h
  · refine fun _ h => h.mono fun ps hps => ⟨hps.1.1, ?_⟩
    split
    · exact hps.2
    · exact hps.1.2
  · exact fun _ _ h => h.mono fun _ hps => hps.1

/-- The head of `_send_dtls` accepts nothing and gives zero or an error. -/
theorem triple_prepareSend (now : UInt32) :
    Prog.Triple (Progress t Φ) (prepareSend now)
      (fun ret => Progress t fun ps => Φ ps ∧ ret ≤ 0) fun _ => True := by
  refine Prog.triple_bind (triple_otherCall .getPeerCid (fun _ => rfl) fun _ h => h) fun cid => ?_
  refine Prog.triple_bind (Q := fun _ => Progress t fun ps => Φ ps ∧ cid.code ≤ 0)
    (Prog.triple_lift fun _ h => h) fun last => ?_
  unfold refreshSession
  split
  · exact Prog.triple_pure fun _ h => h.mono fun _ hps => ⟨hps.1, Int.le_refl 0⟩
  split
  · refine Prog.triple_bind (triple_otherRetry renegotiateAgain (.renegotiate _) (fun _ => rfl)
      fun _ h => h) fun ret => ?_
    refine Prog.triple_bind (triple_recoverRenegotiation ret) fun ret => ?_
    refine Prog.triple_pure fun _ h => h.mono fun _ hps => ⟨hps.1.1, ?_⟩
    split <;> decide
  · exact Prog.triple_pure fun _ h => h

end Calls

/-! ## The loops -/

section Loops

variable {t : List NetEvent} {length : Nat}

/-- All positions before `offset` were accepted. -/
def UpTo (length offset : Nat) (ps : List Nat) : Prop := offset ≤ length ∧ ps = List.range offset

/-- Accepting a piece that was offered moves the offset. -/
theorem UpTo.accept {offset : Nat} {ps : List Nat} {n : Int} (hlength : length < 2 ^ 31)
    (h : UpTo length offset ps) (hle : n ≤ (sizeSub length offset : Nat)) :
    UpTo length (sizeAdd offset n.toNat) (ps ++ List.range' offset n.toNat) := by
  obtain ⟨hoffset, rfl⟩ := h
  rw [sizeSub_eq hoffset (by omega)] at hle
  have hadd : sizeAdd offset n.toNat = offset + n.toNat := sizeAdd_eq (by omega)
  rw [hadd, range_extend]
  exact ⟨by omega, rfl⟩

/-- The loop of `_send_udp` and `_send_tcp`: a positive result is the whole
length, and everything was accepted. -/
theorem triple_sendAll (hlength : length < 2 ^ 31) {transport : Transport}
    (htransport : ∀ w offset n m result, ∃ e, transport w (.app offset n) m result = w.emit e ∧
      acceptedPiece e = some (offset, result.toNat) ∧ (Legal e → result ≤ n)) :
    ∀ rounds offset, Prog.Triple (Progress t (UpTo length offset))
      (sendAll transport length rounds offset)
      (fun n => Progress t fun ps => 0 < n → n = length ∧ ps = List.range length)
      fun _ => True := by
  intro rounds
  induction rounds with
  | zero =>
      intro offset
      exact Prog.triple_wait fun _ _ => trivial
  | succ rounds ih =>
      intro offset
      unfold sendAll
      split
      · rename_i hoffset
        refine Prog.triple_pure fun _ h => h.mono fun ps hps _ => ?_
        rw [hoffset, toInt_eq hlength]
        exact ⟨rfl, hoffset ▸ hps.2⟩
      refine Prog.triple_bind (Q := fun _ => Progress t (UpTo length offset))
        (triple_answer (fun _ _ => trivial) fun _ _ _ h => h) fun a => ?_
      by_cases hcode : a.code ≤ 0
      · -- the error, or the zero, is returned
        refine Prog.triple_bind (Q := fun _ => Progress t fun _ => True)
          (Prog.triple_modify fun w h => ?_) fun _ => ?_
        · obtain ⟨e, he, _⟩ := htransport w offset (sizeSub length offset)
            (sizeSub length offset) a.code
          rw [he]
          exact h.emit e fun _ _ _ => trivial
        · rw [if_pos hcode]
          exact Prog.triple_pure fun _ h => h.mono fun _ _ hpos => absurd hcode (by omega)
      · refine Prog.triple_bind
          (Q := fun _ => Progress t (UpTo length (sizeAdd offset a.code.toNat)))
          (Prog.triple_modify fun w h => ?_) fun _ => ?_
        · obtain ⟨e, he, hpiece, hlegal⟩ := htransport w offset (sizeSub length offset)
            (sizeSub length offset) a.code
          rw [he]
          refine h.emit e fun ps hps hle => ?_
          rw [hpiece]
          exact hps.accept hlength (hlegal hle)
        · rw [if_neg hcode]
          exact ih _

/-- The write loop of `_send_dtls`: a result that is not negative is the whole
length, and everything was accepted. -/
theorem triple_writeAll (hlength : length < 2 ^ 31) :
    ∀ rounds offset, Prog.Triple (Progress t (UpTo length offset))
      (writeAll length rounds offset)
      (fun n => Progress t fun ps => 0 ≤ n → n = length ∧ ps = List.range length)
      fun _ => True := by
  intro rounds
  induction rounds with
  | zero =>
      intro offset
      exact Prog.triple_wait fun _ _ => trivial
  | succ rounds ih =>
      intro offset
      unfold writeAll
      split
      · rename_i hoffset
        refine Prog.triple_pure fun _ h => h.mono fun ps hps _ => ?_
        rw [hoffset, toInt_eq hlength]
        exact ⟨rfl, hoffset ▸ hps.2⟩
      -- a negative code accepts nothing, the others advance the offset
      refine Prog.triple_bind (Q := fun a => Progress t
        (UpTo length (if a.code < 0 then offset else sizeAdd offset a.code.toNat)))
        (triple_sslCall (fun _ _ => trivial) fun w a rest h => ?_) fun a => ?_
      · have h' : Progress t (UpTo length offset) { w with script := rest } := h
        refine h'.afterSsl _ a fun ps hps hle => ?_
        by_cases hneg : a.code < 0
        · have hzero : a.code.toNat = 0 := by omega
          rw [if_pos hneg]
          simpa [acceptedPiece, hzero] using hps
        · rw [if_neg hneg]
          exact hps.accept hlength hle
      by_cases hagain : writeAgain a.code = true
      · have hneg : a.code < 0 := by
          simp only [writeAgain, Bool.or_eq_true, beq_iff_eq] at hagain
          rcases hagain with ((h | h) | h) | h <;> rw [h] <;> decide
        rw [if_pos hagain, if_pos hneg]
        exact ih offset
      rw [if_neg hagain]
      by_cases hneg : a.code < 0
      · rw [if_pos hneg, if_pos hneg]
        refine Prog.triple_bind triple_restartSession fun ret => ?_
        split
        · exact (ih offset).mono (fun _ h => h.mono fun _ hps => hps.1) (fun _ _ h => h)
            fun _ h => h
        · exact Prog.triple_pure fun _ h => h.mono fun _ hps hpos => by omega
      · rw [if_neg hneg, if_neg hneg]
        exact ih _

end Loops

/-! ## Positions and bytes -/

theorem take_drop_eq_filterMap (buffer : List UInt8) :
    ∀ n offset, (buffer.drop offset).take n =
      (List.range' offset n).filterMap fun i => buffer[i]? := by
  intro n
  induction n with
  | zero =>
      intro offset
      rw [List.take_zero]
      rfl
  | succ n ih =>
      intro offset
      rw [List.range'_succ, List.filterMap_cons, ← ih]
      by_cases h : offset < buffer.length
      · rw [List.drop_eq_getElem_cons h, List.take_succ_cons, List.getElem?_eq_getElem h]
      · have hnil : ∀ m, offset ≤ m → buffer.drop m = [] := fun m hm =>
          List.drop_eq_nil_of_le (by omega)
        rw [hnil _ (Nat.le_refl _), hnil _ (Nat.le_succ _), List.getElem?_eq_none (by omega),
          List.take_nil, List.take_nil]

theorem transmitted_eq_filterMap (buffer : List UInt8) (t : List NetEvent) :
    transmitted buffer t = (positions t).filterMap fun i => buffer[i]? := by
  unfold transmitted positions
  rw [List.filterMap_flatMap]
  simp only [take_drop_eq_filterMap]

/-- Once every position was accepted in order, what was transmitted is the
buffer. -/
theorem transmitted_eq_buffer {buffer : List UInt8} {t : List NetEvent}
    (h : positions t = List.range buffer.length) : transmitted buffer t = buffer := by
  rw [transmitted_eq_filterMap, h, List.range_eq_range', ← take_drop_eq_filterMap,
    List.drop_zero, List.take_length]

/-! ## The result -/

/-- The transport accepted exactly the buffer: every position once, in order. -/
def Accepted (buffer : List UInt8) (es : List NetEvent) : Prop :=
  positions es = List.range buffer.length ∧ transmitted buffer es = buffer

/-- A program that returns a positive number returns the whole length, and the
transport accepted exactly the buffer. -/
def SendsExactly (buffer : List UInt8) (send : Prog World Int) (w : World) : Prop :=
  ∀ n w', send w = .returned n w' → ∃ es, w'.trace = w.trace ++ es ∧
    ((∀ e ∈ es, Legal e) → 0 < n → n = buffer.length ∧ Accepted buffer es)

theorem sendsExactly_of_triple {buffer : List UInt8} {send : Prog World Int} {w : World}
    (h : Prog.Triple (Progress w.trace fun ps => ps = []) send
      (fun n => Progress w.trace fun ps =>
        0 < n → n = buffer.length ∧ ps = List.range buffer.length) fun _ => True) :
    SendsExactly buffer send w := by
  intro n w' hreturned
  obtain ⟨es, htrace, hes⟩ := h.returned (progress_start w) hreturned
  refine ⟨es, htrace, fun hlegal hpos => ?_⟩
  obtain ⟨hn, hps⟩ := hes hlegal hpos
  exact ⟨hn, hps, transmitted_eq_buffer hps⟩

/-- `_send_dtls`, with a result that is not negative. -/
theorem triple_sendDtls {t : List NetEvent} {length : Nat} (hlength : length < 2 ^ 31)
    (now later : UInt32) :
    Prog.Triple (Progress t fun ps => ps = []) (sendDtls now later length)
      (fun n => Progress t fun ps => 0 ≤ n → n = length ∧ ps = List.range length)
      fun _ => True := by
  refine Prog.triple_bind (triple_prepareSend now) fun ret => ?_
  refine Prog.triple_bind
    (Q := fun n : Int => Progress t fun ps => 0 ≤ n → n = length ∧ ps = List.range length)
    ?_ fun n => ?_
  · unfold sendPrepared
    split
    · refine fun w h => triple_writeAll hlength (w.script.length + 1) 0 w (h.mono fun ps hps => ?_)
      exact ⟨Nat.zero_le _, hps.1⟩
    · exact Prog.triple_pure fun _ h => h.mono fun _ hps hpos => by omega
  · refine Prog.triple_bind (Q := fun _ => Progress t _) (Prog.triple_modify fun w h => ?_)
      fun _ => Prog.triple_pure fun _ h => h
    split
    · exact h
    · exact h

/-- `lwm2m_buffer_send` on a DTLS context: no error means that `_send_dtls`
returned the length of the buffer. -/
theorem lwm2mBufferSend_noError {session : Option Nat} {now later : UInt32} {length : Nat}
    {w w' : World} (hfn : w.ctx.sendFn = some .sendDtls)
    (h : lwm2mBufferSend session now later length w = .returned coapNoError w') :
    ∃ n, 0 ≤ n ∧ sendDtls now later length w = .returned n w' := by
  have hdtls : uisoNetworkSend now later length w = sendDtls now later length w := by
    unfold uisoNetworkSend
    rw [hfn]
  cases session with
  | none =>
      simp [lwm2mBufferSend, coap500InternalServerError, coapNoError] at h
  | some session =>
      cases hsend : sendDtls now later length w with
      | waiting w'' =>
          have hbind : connectionSend now later length w = .waiting w'' :=
            Prog.bind_waiting (hdtls.trans hsend)
          rw [lwm2mBufferSend, Prog.bind_waiting hbind] at h
          cases h
      | returned n w'' =>
          have hbind : connectionSend now later length w =
              .returned (if n < 0 then -1 else n) w'' :=
            Prog.bind_returned (hdtls.trans hsend)
          rw [lwm2mBufferSend, Prog.bind_returned hbind] at h
          by_cases hn : n < 0
          · simp [hn, coap500InternalServerError, coapNoError] at h
          · have hne : n ≠ -1 := by omega
            have hw : w'' = w' := by simpa [hn, hne] using h
            exact ⟨n, by omega, by rw [hw]⟩

/-- What is promised about sending a buffer: the three send functions transmit
it exactly or do not return a positive number; `lwm2m_buffer_send` on a DTLS
context reports no error only if `_send_dtls` returned the length and the buffer
was transmitted exactly; and `last_send_time` is set precisely when `_send_dtls`
returns a number that is not negative. -/
structure ExactTransmission (buffer : List UInt8) (now later : UInt32) (w : World) : Prop where
  udp : SendsExactly buffer (sendUdp buffer.length) w
  tcp : SendsExactly buffer (sendTcp buffer.length) w
  dtls : SendsExactly buffer (sendDtls now later buffer.length) w
  bufferSend : ∀ session w', w.ctx.sendFn = some .sendDtls →
    lwm2mBufferSend session now later buffer.length w = .returned coapNoError w' →
    ∃ es, w'.trace = w.trace ++ es ∧ ((∀ e ∈ es, Legal e) →
      sendDtls now later buffer.length w = .returned buffer.length w' ∧ Accepted buffer es)
  lastSendTime : ∀ n w', sendDtls now later buffer.length w = .returned n w' →
    w'.ctx.lastSendTime = if 0 ≤ n then later else w.ctx.lastSendTime

/-- For every buffer of at most `INT_MAX` bytes, every state of the context and
all answers of the transport. -/
theorem transmission_exact (buffer : List UInt8) (now later : UInt32) (w : World)
    (hlength : buffer.length ≤ 2 ^ 31 - 1) : ExactTransmission buffer now later w where
  udp := by
    refine sendsExactly_of_triple fun w' h => ?_
    refine triple_sendAll (by omega) (fun w _ _ _ _ => ⟨_, rfl, rfl, id⟩) _ 0 w' ?_
    exact h.mono fun _ hps => ⟨Nat.zero_le _, hps⟩
  tcp := by
    refine sendsExactly_of_triple fun w' h => ?_
    refine triple_sendAll (by omega) (fun w _ _ _ _ => ⟨_, rfl, rfl, id⟩) _ 0 w' ?_
    exact h.mono fun _ hps => ⟨Nat.zero_le _, hps⟩
  dtls := by
    refine sendsExactly_of_triple ((triple_sendDtls (by omega) now later).mono (fun _ h => h) ?_
      fun _ h => h)
    exact fun _ _ h => h.mono fun _ hps hpos => hps (by omega)
  bufferSend := by
    intro session w' hfn hsend
    obtain ⟨n, hn, hdtls⟩ := lwm2mBufferSend_noError hfn hsend
    obtain ⟨es, htrace, hes⟩ :=
      (triple_sendDtls (by omega) now later).returned (progress_start w) hdtls
    refine ⟨es, htrace, fun hlegal => ?_⟩
    obtain ⟨hlen, hps⟩ := hes hlegal hn
    exact ⟨by rw [hdtls, hlen], hps, transmitted_eq_buffer hps⟩
  lastSendTime := fun _ _ h => sendDtls_lastSendTime h

/-- Four bytes over a DTLS session: a partial write, a would-block, an error with
a restart of the session, and the rest. -/
theorem transmission_exact_restart :
    ExactTransmission [1, 2, 3, 4] 1000 1001
      ⟨{ initializeNetworkCtx with sendFn := some .sendDtls, lastSendTime := 990 },
        [{ code := 0 }, { code := 3 }, { code := mbedtlsErrSslWantWrite }, { code := -0x7780 },
          { code := 0 }, { code := 0 }, { code := 0 }, { code := 1 }], []⟩ :=
  transmission_exact [1, 2, 3, 4] 1000 1001 _ (by decide)

end Uiso.Lwm2m
