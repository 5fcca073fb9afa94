import LibEst.Coap.Exchanges
import LibEst.Coap.ReferenceEnv
import LibEst.Server.HttpRequest
import LibEst.Server.RoutingExact

/-! When the application hears of a request exactly twice, at its start and at its end,
and the client gets one answer: a request over HTTP is followed from the dispatcher down
to its last write. -/
namespace LibEst.Server.Bracketing

open LibEst.Basic LibEst.OpenSsl LibEst.Lib.ByteString LibEst.Lib.Trace LibEst.Asn1
open LibEst.Coap.Handlers (EndpointNotice)
open LibEst.Server.AuthHeader LibEst.Server.Context
open LibEst.Server.CsrAttrs LibEst.Server.Enroll LibEst.Server.Routing LibEst.Server.HttpRequest

section Observed

def noticesOf (events : List HttpEvent) : List EndpointNotice :=
  events.filterMap fun
    | .notice notice => some notice
    | .wrote .. => none

def isHeader : Part → Bool
  | .header _ => true
  | .body _ => false

/-- A status line of which something got through. -/
def isStatusLine : HttpEvent → Bool
  | .notice _ => false
  | .wrote part sent => isHeader part && 0 < sent

/-- One notice at the start, one at the end, and no second status line. -/
structure BracketedOnce (events : List HttpEvent) : Prop where
  bracketed : noticesOf events = [.reqStart, .reqEnd]
  answered : events.countP isStatusLine ≤ 1

def IsWrite (event : HttpEvent) : Prop := ∃ part sent, event = .wrote part sent

theorem noticesOf_append (events later : List HttpEvent) :
    noticesOf (events ++ later) = noticesOf events ++ noticesOf later :=
  List.filterMap_append

theorem noticesOf_writes {events : List HttpEvent} (h : ∀ e ∈ events, IsWrite e) :
    noticesOf events = [] := by
  rw [noticesOf, List.filterMap_eq_nil_iff]
  intro e he
  obtain ⟨part, sent, rfl⟩ := h e he
  rfl

end Observed

section Writes

variable {parts : List Part} {wire : Wire}

/-- A write comes back. -/
def Returns (part : Part) (results : List Int) : Prop :=
  (push part.text.length results 0).2

/-- A write comes back, and something got through. -/
def GetsOut (part : Part) (results : List Int) : Prop :=
  Returns part results ∧ (push part.text.length results 0).1 ≠ 0

def AllReturn : List Part → Wire → Prop
  | [], _ => True
  | part :: rest, wire => Returns part (wire.headD []) ∧ AllReturn rest wire.tail

def AllGetOut : List Part → Wire → Prop
  | [], _ => True
  | part :: rest, wire => GetsOut part (wire.headD []) ∧ AllGetOut rest wire.tail

instance (part : Part) (results : List Int) : Decidable (Returns part results) :=
  inferInstanceAs (Decidable ((push part.text.length results 0).2 = true))

instance (part : Part) (results : List Int) : Decidable (GetsOut part results) :=
  inferInstanceAs (Decidable (_ ∧ _))

theorem mgWrite_writes (part : Part) (wire : Wire) : ∀ e ∈ (mgWrite part wire).events, IsWrite e := by
  intro e he
  exact ⟨part, _, List.mem_singleton.mp he⟩

theorem mgWrite_value (part : Part) (wire : Wire) (result : Nat × Wire) :
    (mgWrite part wire).value = some result ↔ Returns part (wire.headD []) ∧
      result = ((push part.text.length (wire.headD []) 0).1, wire.tail) := by
  unfold mgWrite Returns
  cases hpush : push part.text.length (wire.headD []) 0 with
  | mk sent returned => cases returned <;> simp [eq_comm]

theorem mgWrite_status (part : Part) (wire : Wire) :
    (mgWrite part wire).events.countP isStatusLine ≤ [part].countP isHeader := by
  unfold mgWrite
  cases part with
  | header text => exact List.countP_le_length
  | body text => exact Nat.le_refl 0

theorem printParts_writes (parts : List Part) (wire : Wire) :
    ∀ e ∈ (printParts parts wire).events, IsWrite e := by
  induction parts generalizing wire with
  | nil =>
    intro e he
    cases he
  | cons part rest ih =>
    apply bind_forall_events
    · exact mgWrite_writes part wire
    · intro result _
      exact ih result.2

theorem writeParts_writes (parts : List Part) (wire : Wire) :
    ∀ e ∈ (writeParts parts wire).events, IsWrite e := by
  induction parts generalizing wire with
  | nil =>
    intro e he
    cases he
  | cons part rest ih =>
    apply bind_forall_events
    · exact mgWrite_writes part wire
    · intro result _
      dsimp only
      split
      · intro e he
        cases he
      · exact ih result.2

/-- There are no more status lines than texts that begin with one. -/
theorem printParts_status (parts : List Part) (wire : Wire) :
    (printParts parts wire).events.countP isStatusLine ≤ parts.countP isHeader := by
  induction parts generalizing wire with
  | nil => exact Nat.le_refl 0
  | cons part rest ih =>
    rw [← List.singleton_append, List.countP_append]
    apply bind_countP_le
    · exact mgWrite_status part wire
    · intro result _
      exact ih result.2

theorem writeParts_status (parts : List Part) (wire : Wire) :
    (writeParts parts wire).events.countP isStatusLine ≤ parts.countP isHeader := by
  induction parts generalizing wire with
  | nil => exact Nat.le_refl 0
  | cons part rest ih =>
    rw [← List.singleton_append, List.countP_append]
    apply bind_countP_le
    · exact mgWrite_status part wire
    · intro result _
      dsimp only
      split
      · exact Nat.zero_le _
      · exact ih result.2

theorem printParts_value (parts : List Part) (wire : Wire) :
    (∃ last, (printParts parts wire).value = some last) ↔ AllReturn parts wire := by
  induction parts generalizing wire with
  | nil => exact iff_of_true ⟨wire, rfl⟩ trivial
  | cons part rest ih =>
    rw [printParts, AllReturn, ← ih wire.tail]
    simp only [bind_value_eq_some_iff, mgWrite_value]
    constructor
    · intro h
      obtain ⟨last, result, ⟨hreturns, rfl⟩, hlast⟩ := h
      exact ⟨hreturns, last, hlast⟩
    · intro h
      obtain ⟨hreturns, last, hlast⟩ := h
      exact ⟨last, _, ⟨hreturns, rfl⟩, hlast⟩

theorem writeParts_value (parts : List Part) (wire : Wire) :
    (∃ last, (writeParts parts wire).value = some (true, last)) ↔ AllGetOut parts wire := by
  induction parts generalizing wire with
  | nil => exact iff_of_true ⟨wire, rfl⟩ trivial
  | cons part rest ih =>
    rw [writeParts, AllGetOut, ← ih wire.tail, GetsOut]
    simp only [bind_value_eq_some_iff, mgWrite_value]
    constructor
    · intro h
      obtain ⟨last, result, ⟨hreturns, rfl⟩, hlast⟩ := h
      dsimp only at hlast
      split at hlast
      · cases hlast
      · rename_i hsent
        exact ⟨⟨hreturns, hsent⟩, last, hlast⟩
    · intro h
      obtain ⟨⟨hreturns, hsent⟩, last, hlast⟩ := h
      refine ⟨last, _, ⟨hreturns, rfl⟩, ?_⟩
      dsimp only
      rw [if_neg hsent]
      exact hlast

end Writes

section Replies

variable {C : Crypto} {A : Asn1Ops} {S : HttpServer} {r : Request} {ssl : Ssl}
  {pathSeg : Option Bytes} {operation : EstOperation} {reply : Reply} {wire : Wire}

/-- A reply that an operation can get: an error is one to it, a challenge is not given
for the asking, and an answer begins once. -/
structure Proper (operation : EstOperation) (reply : Reply) : Prop where
  refused : ∀ rc, reply = .refused rc → served operation rc = false
  challenge : reply = .challenge → served operation .authPending
  content : ∀ parts, reply = .content parts → parts.countP isHeader ≤ 1

theorem proper_refused {rc : EstError} (h : served operation rc = false) :
    Proper operation (.refused rc) where
  refused _ heq := by
    cases heq
    exact h
  challenge heq := by cases heq
  content _ heq := by cases heq

theorem proper_content {parts : List Part} (h : parts.countP isHeader ≤ 1) :
    Proper operation (.content parts) where
  refused _ heq := by cases heq
  challenge heq := by cases heq
  content _ heq := by
    cases heq
    exact h

theorem proper_challenge (h : served operation .authPending) : Proper operation .challenge where
  refused _ heq := by cases heq
  challenge _ := h
  content _ heq := by cases heq

theorem proper_noContent : Proper operation .noContent where
  refused _ heq := by cases heq
  challenge heq := by cases heq
  content _ heq := by cases heq

theorem served_eq_false_of_ne {rc : EstError} (hnone : rc ≠ .none) (hpending : rc ≠ .authPending) :
    served operation rc = false := by
  simp [served, hnone, hpending]

theorem contentParts_headers (contentType : String) (content : Bytes) :
    (contentParts contentType content).countP isHeader ≤ 1 := Nat.le_refl 1

theorem keygenParts_headers (key cert : Bytes) : (keygenParts key cert).countP isHeader ≤ 1 :=
  Nat.le_refl 1

theorem errorParts_headers (keepAlive : Bool) (rc : EstError) :
    (errorParts keepAlive rc).countP isHeader ≤ 1 := by
  unfold errorParts
  dsimp only
  split
  · exact Nat.le_refl 1
  · exact Nat.le_refl 1

theorem challengeParts_headers (authMode : AuthMode) (realm : Bytes) (now : Nat) :
    (challengeParts authMode realm now).countP isHeader ≤ 1 := by
  cases authMode
  · exact Nat.zero_le 1
  · exact Nat.le_refl 1
  · exact Nat.le_refl 1
  · exact Nat.le_refl 1
  · exact Nat.zero_le 1

theorem cacerts_proper : Proper .cacerts (estServerHandleCacerts S pathSeg) := by
  unfold estServerHandleCacerts
  dsimp only
  split
  · exact proper_content (contentParts_headers _ _)
  · exact proper_refused rfl

theorem csrAttrs_proper (answer : AttrsResponse) : Proper .csrattrs (csrAttrsReply answer) := by
  unfold csrAttrsReply
  split
  · rename_i hrc
    apply proper_refused
    simp [served, hrc]
  · split
    · exact proper_content (contentParts_headers _ _)
    · exact proper_noContent

theorem enroll_proper (h : served operation .authPending) (enrollReq : EnrollReqType)
    (out : Outcome) : Proper operation (enrollReply enrollReq out) := by
  unfold enrollReply
  split
  · split
    · exact proper_content (keygenParts_headers _ _)
    · exact proper_content (contentParts_headers _ _)
  · rename_i hnone
    split
    · exact proper_challenge h
    · rename_i hpending
      exact proper_refused (served_eq_false_of_ne hnone hpending)

theorem brski_proper (h : served operation .authPending) {contentTypes : List String}
    {contentType : Bytes} {α : Type} {callback : Option (Bytes → Option X509 → α)}
    {answered : α → Reply} (hanswered : ∀ a, Proper operation (answered a))
    (hreply : brskiReply C S r ssl pathSeg contentTypes contentType callback answered = some reply) :
    Proper operation reply := by
  unfold brskiReply at hreply
  split at hreply
  · cases hreply
    exact proper_refused (served_eq_false_of_ne (by decide) (by decide))
  · split at hreply
    · cases hreply
      exact proper_refused (served_eq_false_of_ne (by decide) (by decide))
    · obtain ⟨auth, -, rfl⟩ := Option.map_eq_some_iff.mp hreply
      cases auth.state
      · exact proper_refused (served_eq_false_of_ne (by decide) (by decide))
      · exact proper_refused (served_eq_false_of_ne (by decide) (by decide))
      · exact hanswered _
      · exact proper_challenge h
      · exact hanswered _
      · exact hanswered _

theorem voucherAnswer_proper (answer : BrskiCallbackRc × Option Bytes) :
    Proper operation (voucherAnswer S answer) := by
  unfold voucherAnswer
  split
  · exact proper_content (contentParts_headers _ _)
  · exact proper_content (Nat.le_refl 1)
  · exact proper_refused (served_eq_false_of_ne (by decide) (by decide))

theorem statusAnswer_proper (answer : BrskiCallbackRc) :
    Proper operation (statusAnswer answer) := by
  unfold statusAnswer
  split
  · exact proper_content (Nat.le_refl 1)
  · exact proper_refused (served_eq_false_of_ne (by decide) (by decide))

theorem handlerReply_proper (h : handlerReply C A S r ssl pathSeg operation = some reply) :
    Proper operation reply := by
  cases operation with
  | cacerts =>
    cases h
    exact cacerts_proper
  | csrattrs =>
    obtain ⟨answer, -, rfl⟩ := Option.map_eq_some_iff.mp h
    exact csrAttrs_proper answer
  | simpleEnroll | simpleReenroll | serverKeygen =>
    obtain ⟨out, -, rfl⟩ := Option.map_eq_some_iff.mp h
    exact enroll_proper rfl _ out
  | brskiReqVoucher => exact brski_proper rfl voucherAnswer_proper h
  | brskiVoucherStatus | brskiEnrollStatus => exact brski_proper rfl statusAnswer_proper h

/-- A reply reaches the client: every write of an answer gets something through, and
those that nobody looks at come back. -/
def Delivered (S : HttpServer) (r : Request) (reply : Reply) (wire : Wire) : Prop :=
  match reply with
  | .refused _ => False
  | .challenge => AllReturn (challengeParts S.ctx.authMode S.realm r.now) wire
  | .content parts => AllGetOut parts wire
  | .noContent => AllReturn (errorParts r.keepAlive .httpNoContent) wire

theorem sendReply_writes (reply : Reply) (wire : Wire) :
    ∀ e ∈ (sendReply S r reply wire).events, IsWrite e := by
  cases reply with
  | refused rc =>
    intro e he
    cases he
  | challenge | noContent =>
    apply bind_forall_events (printParts_writes _ wire)
    intro last _ e he
    cases he
  | content parts =>
    apply bind_forall_events (writeParts_writes parts wire)
    intro last _ e he
    cases he

theorem sendReply_status (h : Proper operation reply) (wire : Wire) :
    (sendReply S r reply wire).events.countP isStatusLine ≤ 1 := by
  cases reply with
  | refused rc => exact Nat.zero_le 1
  | challenge =>
    simp only [sendReply, bind_pure_eq]
    exact (printParts_status _ wire).trans (challengeParts_headers ..)
  | noContent =>
    simp only [sendReply, bind_pure_eq]
    exact (printParts_status _ wire).trans (errorParts_headers ..)
  | content parts =>
    simp only [sendReply, bind_pure_eq]
    exact (writeParts_status parts wire).trans (h.content parts rfl)

/-- A handler returns a code that counts as served just where its reply arrives. -/
theorem sendReply_served (h : Proper operation reply) :
    (∃ rc last, (sendReply S r reply wire).value = some (rc, last) ∧ served operation rc) ↔
      Delivered S r reply wire := by
  cases reply with
  | refused rc =>
    apply iff_of_false
    · intro hserved
      obtain ⟨rc', last, hvalue, hserved⟩ := hserved
      cases hvalue
      exact Bool.false_ne_true ((h.refused rc rfl).symm.trans hserved)
    · exact not_false
  | challenge =>
    rw [Delivered, ← printParts_value]
    simp only [sendReply, bind_pure_eq, Option.map_eq_some_iff, Prod.mk.injEq]
    constructor
    · intro hserved
      obtain ⟨rc, last, ⟨wire', hvalue, -⟩, -⟩ := hserved
      exact ⟨wire', hvalue⟩
    · intro hvalue
      obtain ⟨wire', hvalue⟩ := hvalue
      exact ⟨.authPending, wire', ⟨wire', hvalue, rfl, rfl⟩, h.challenge rfl⟩
  | noContent =>
    rw [Delivered, ← printParts_value]
    simp only [sendReply, bind_pure_eq, Option.map_eq_some_iff, Prod.mk.injEq]
    constructor
    · intro hserved
      obtain ⟨rc, last, ⟨wire', hvalue, -⟩, -⟩ := hserved
      exact ⟨wire', hvalue⟩
    · intro hvalue
      obtain ⟨wire', hvalue⟩ := hvalue
      exact ⟨.none, wire', ⟨wire', hvalue, rfl, rfl⟩, rfl⟩
  | content parts =>
    rw [Delivered, ← writeParts_value]
    simp only [sendReply, bind_pure_eq, Option.map_eq_some_iff, Prod.mk.injEq]
    constructor
    · intro hserved
      obtain ⟨rc, last, ⟨⟨written, wire'⟩, hvalue, hrc, -⟩, hserved⟩ := hserved
      cases written with
      | true => exact ⟨wire', hvalue⟩
      | false =>
        rw [← hrc] at hserved
        have hwrite : served operation .httpWrite = false :=
          served_eq_false_of_ne (by decide) (by decide)
        exact absurd (hwrite.symm.trans hserved) Bool.false_ne_true
    · intro hvalue
      obtain ⟨wire', hvalue⟩ := hvalue
      exact ⟨.none, wire', ⟨(true, wire'), hvalue, rfl, rfl⟩, rfl⟩

end Replies

section Dispatching

variable {C : Crypto} {A : Asn1Ops} {U : UriParser} {brski : Bool} {S : HttpServer} {r : Request}
  {ssl : Ssl} {pathSeg : Option Bytes} {operation : EstOperation} {wire : Wire}

/-- The method is right, there is a content type where one is needed, and the reply of
the handler arrives. -/
def OperationCompletes (C : Crypto) (A : Asn1Ops) (S : HttpServer) (r : Request) (ssl : Ssl)
    (pathSeg : Option Bytes) (operation : EstOperation) (wire : Wire) : Prop :=
  wrongRequest operation r = none ∧
    ∃ reply, handlerReply C A S r ssl pathSeg operation = some reply ∧ Delivered S r reply wire

/-- The request is one to a server, over TLS, its URI names an operation, and the
operation runs to its end. -/
def Completes (C : Crypto) (A : Asn1Ops) (U : UriParser) (brski : Bool) (S : HttpServer)
    (r : Request) (wire : Wire) : Prop :=
  S.ctx.estMode = .server ∧ ∃ ssl, r.ssl = some ssl ∧
    ∃ parsed, estParseUri U brski r.uri r.behindUri = some parsed ∧ parsed.rv = .none ∧
      match (parsed.operation.or r.stale).filter fun op => brski || !isBrski op with
      | some operation => OperationCompletes C A S r ssl parsed.pathSeg operation wire
      | none => AllReturn (errorParts r.keepAlive .unknown) wire

/-- What is still to come once the start has been announced. -/
structure EndsOnce (events : List HttpEvent) : Prop where
  ends : noticesOf events = [.reqEnd]
  answered : events.countP isStatusLine ≤ 1

theorem bracketedOnce_start_iff (events : List HttpEvent) :
    BracketedOnce (.notice .reqStart :: events) ↔ EndsOnce events := by
  have hnotices : noticesOf (.notice .reqStart :: events) = .reqStart :: noticesOf events := rfl
  have hlines : (HttpEvent.notice .reqStart :: events).countP isStatusLine =
      events.countP isStatusLine := List.countP_cons_of_neg Bool.false_ne_true
  constructor
  · intro h
    have hends := h.bracketed
    have hanswered := h.answered
    rw [hnotices, List.cons.injEq] at hends
    rw [hlines] at hanswered
    exact ⟨hends.2, hanswered⟩
  · intro h
    constructor
    · rw [hnotices, h.ends]
    · rw [hlines]
      exact h.answered

theorem not_endsOnce_of_writes {events : List HttpEvent} (h : ∀ e ∈ events, IsWrite e) :
    ¬ EndsOnce events := by
  intro hends
  have hnotices := hends.ends
  rw [noticesOf_writes h] at hnotices
  cases hnotices

theorem endsOnce_announced {events : List HttpEvent} (h : ∀ e ∈ events, IsWrite e)
    (hstatus : events.countP isStatusLine ≤ 1) :
    EndsOnce (events ++ (announceEnd : Traced HttpEvent EstError).events) := by
  constructor
  · rw [noticesOf_append, noticesOf_writes h]
    rfl
  · rw [List.countP_append]
    exact hstatus

theorem estSendHttpError_writes (rc : EstError) (wire : Wire) :
    ∀ e ∈ (estSendHttpError S r rc wire).events, IsWrite e := by
  unfold estSendHttpError
  split
  · apply bind_forall_events (mgWrite_writes _ wire)
    intro result _
    dsimp only
    split
    · exact printParts_writes _ _
    · intro e he
      cases he
  · exact printParts_writes _ _

/-- No error exit announces an end. -/
theorem giveUp_writes (sent rc : EstError) (wire : Wire) :
    ∀ e ∈ (giveUp S r sent rc wire).events, IsWrite e := by
  apply bind_forall_events (estSendHttpError_writes sent wire)
  intro last _ e he
  cases he

theorem handleOperation_endsOnce_iff :
    EndsOnce (handleOperation C A S r ssl pathSeg operation wire).events ↔
      OperationCompletes C A S r ssl pathSeg operation wire := by
  unfold handleOperation OperationCompletes
  cases hwrong : wrongRequest operation r with
  | some rc =>
    apply iff_of_false (not_endsOnce_of_writes (giveUp_writes rc rc wire))
    intro h
    cases h.1
  | none =>
    cases hreply : handlerReply C A S r ssl pathSeg operation with
    | none =>
      apply iff_of_false
      · apply not_endsOnce_of_writes
        intro e he
        cases he
      · intro h
        obtain ⟨reply, hsome, -⟩ := h.2
        cases hsome
    | some reply =>
      have hproper := handlerReply_proper hreply
      have hwrites := @sendReply_writes S r reply wire
      have hiff : (∃ reply', some reply = some reply' ∧ Delivered S r reply' wire) ↔
          ∃ rc last, (sendReply S r reply wire).value = some (rc, last) ∧ served operation rc := by
        rw [sendReply_served hproper]
        simp
      simp only [true_and, hiff]
      have hofOption : ∀ {β : Type} (f : Reply → Traced HttpEvent β),
          (ofOption (some reply) >>= f) = f reply := pure_bind reply
      rw [hofOption]
      cases hvalue : (sendReply S r reply wire).value with
      | none =>
        rw [bind_of_value_none hvalue]
        apply iff_of_false (not_endsOnce_of_writes hwrites)
        intro h
        obtain ⟨rc, last, hsome, -⟩ := h
        cases hsome
      | some result =>
        rw [bind_of_value_some hvalue]
        cases hserved : served operation result.1 with
        | true =>
          apply iff_of_true
          · simp only [if_true]
            exact endsOnce_announced hwrites (sendReply_status hproper wire)
          · exact ⟨result.1, result.2, rfl, hserved⟩
        | false =>
          apply iff_of_false
          · apply not_endsOnce_of_writes
            intro e he
            cases List.mem_append.mp he with
            | inl hfirst => exact hwrites e hfirst
            | inr hsecond => exact giveUp_writes _ _ _ e hsecond
          · intro h
            obtain ⟨rc, last, hsome, hrc⟩ := h
            cases hsome
            exact Bool.false_ne_true (hserved.symm.trans hrc)

/-- The answer to an operation that there is none of; this one announces its end. -/
theorem unknownOperation_endsOnce_iff :
    EndsOnce (estSendHttpError S r .unknown wire >>= fun _ => announceEnd).events ↔
      AllReturn (errorParts r.keepAlive .unknown) wire := by
  have hsend : estSendHttpError S r .unknown wire =
      printParts (errorParts r.keepAlive .unknown) wire := by
    rw [estSendHttpError, if_neg (by decide)]
  have hwrites := printParts_writes (errorParts r.keepAlive .unknown) wire
  rw [hsend, ← printParts_value]
  cases hvalue : (printParts (errorParts r.keepAlive .unknown) wire).value with
  | none =>
    rw [bind_of_value_none hvalue]
    apply iff_of_false (not_endsOnce_of_writes hwrites)
    intro h
    obtain ⟨last, hsome⟩ := h
    cases hsome
  | some last =>
    rw [bind_of_value_some hvalue]
    apply iff_of_true
    · exact endsOnce_announced hwrites
        ((printParts_status _ wire).trans (errorParts_headers _ _))
    · exact ⟨last, rfl⟩

theorem estHttpRequest_bracketed_iff :
    BracketedOnce (estHttpRequest C A U brski S r wire).events ↔
      Completes C A U brski S r wire := by
  have hsilent : ∀ {events : List HttpEvent}, (∀ e ∈ events, IsWrite e) →
      ¬ BracketedOnce events := by
    intro events hwrites h
    have hnotices := h.bracketed
    rw [noticesOf_writes hwrites] at hnotices
    cases hnotices
  unfold estHttpRequest Completes
  by_cases hmode : S.ctx.estMode = .server
  · simp only [hmode, ne_eq, not_true_eq_false, if_false, true_and]
    cases hssl : r.ssl with
    | none =>
      apply iff_of_false (hsilent (giveUp_writes .noSslCtx .noSslCtx wire))
      intro h
      obtain ⟨ssl, hsome, -⟩ := h
      cases hsome
    | some ssl =>
      simp only [emit_bind, bracketedOnce_start_iff, Option.some.injEq, exists_eq_left']
      cases hparse : estParseUri U brski r.uri r.behindUri with
      | none =>
        apply iff_of_false
        · apply not_endsOnce_of_writes
          intro e he
          cases he
        · intro h
          obtain ⟨parsed, hsome, -⟩ := h
          cases hsome
      | some parsed =>
        have hofOption : ∀ {β : Type} (f : ParsedUri → Traced HttpEvent β),
            (ofOption (some parsed) >>= f) = f parsed := pure_bind parsed
        rw [hofOption]
        simp only [Option.some.injEq, exists_eq_left']
        by_cases hrv : parsed.rv = .none
        · simp only [hrv, not_true_eq_false, if_false, true_and]
          cases (parsed.operation.or r.stale).filter fun op => brski || !isBrski op with
          | some operation => exact handleOperation_endsOnce_iff
          | none => exact unknownOperation_endsOnce_iff
        · simp only [hrv, not_false_eq_true, if_true, false_and, iff_false]
          exact not_endsOnce_of_writes (giveUp_writes _ _ wire)
  · simp only [hmode, ne_eq, not_false_eq_true, if_true, false_and, iff_false]
    apply hsilent
    intro e he
    cases he

end Dispatching

section Transports

open LibEst.Lib.Machine LibEst.Coap.ReqTable LibEst.Coap.Server LibEst.Coap.Exchanges

/-- Over HTTP a request is announced, ended and answered once just where it runs to its
end. Over CoAP the same holds of the exchanges in all states of a run just where every
message is taken for what it is. -/
theorem requests_bracketed_iff (C : Crypto) (A : Asn1Ops) (U : UriParser) (brski : Bool)
    (S : HttpServer) (E : Coap.Handlers.Env) {ctx : CoapCtx} (hfresh : FreshTable ctx)
    {inputs : List PeerEvent}
    (hdefined : Guarded (bookedStep E) (BookedDefined E) (ctx, fun _ => Book.empty) inputs) :
    (∀ (r : Request) (wire : Wire),
      BracketedOnce (estHttpRequest C A U brski S r wire).events ↔
        Completes C A U brski S r wire) ∧
      (Guarded (bookedStep E) (Timely E) (ctx, fun _ => Book.empty) inputs ↔
        ∀ front mid outs, front <+: inputs →
          run (bookedStep E) (ctx, fun _ => Book.empty) front = some (mid, outs) →
          ∀ peer, (mid.2 peer).Balanced) := by
  constructor
  · intro r wire
    exact estHttpRequest_bracketed_iff
  · exact books_balanced_iff hfresh hdefined

end Transports

section Instances

open LibEst.Lib.Machine LibEst.Coap.ReqTable LibEst.Coap.Server LibEst.Coap.Exchanges
open LibEst.Coap.ReferenceEnv LibEst.Server.Reference LibEst.Server.RoutingExact

/-- A server with a text for its CA certificates. -/
def certServer : HttpServer where
  ctx := authCtx
  http := rfl
  realm := ascii "estrealm"
  retryPeriod := 3600
  brskiRetryPeriod := 30
  estGetCacertsCb := none
  caCerts := some (ascii "b2xk\n")
  estBrskiVoucherReqCb := none
  estBrskiVoucherStatusCb := none
  estBrskiEnrollStatusCb := none

def getRequest (uri : String) : Request where
  conn := { source := { authorization := none, stack := [] }, userId := [], statusCode := -1 }
  ssl := some devSession
  method := ascii "GET"
  uri := ascii uri
  behindUri := ascii "HTTP/1.1"
  body := []
  contentType := none
  keepAlive := true
  now := 0
  stale := none

def crtsPeer : SockAddr := .inet 40000 0x01020304

def getCrts : PeerEvent where
  peer := crtsPeer
  event := .request
    { resource := .crts
      pdu := { contentFormat := [], accept := [], payload := [], block1 := none, block2 := none }
      tls := true
      peerCert := true
      answer := { rc := .none, content := some (ascii "b2xk\n"), key := [], caCalled := false } }

/-- The certificates over HTTP, then over CoAP. -/
theorem requests_bracketed_cacerts :
    BracketedOnce (estHttpRequest hostCrypto hostAsn1 pathParser true certServer
        (getRequest "/.well-known/est/cacerts") [[1000], [5]]).events ∧
      ∀ front mid outs, front <+: [⟨crtsPeer, .connected⟩, getCrts] →
        run (bookedStep hostEnv) (startedServer .server 2 5683, fun _ => Book.empty) front =
          some (mid, outs) →
        ∀ peer, (mid.2 peer).Balanced := by
  have hdefined : Guarded (bookedStep hostEnv) (BookedDefined hostEnv)
      (startedServer .server 2 5683, fun _ => Book.empty) [⟨crtsPeer, .connected⟩, getCrts] :=
    ⟨trivial, fun _ _ _ => ⟨fun _ _ _ => trivial, fun _ _ _ => trivial⟩⟩
  have hboth := requests_bracketed_iff hostCrypto hostAsn1 pathParser true certServer hostEnv
    (startedServer_fresh (Or.inl rfl) (by decide) (by decide) 2) hdefined
  constructor
  · apply (hboth.1 _ _).mpr
    refine ⟨rfl, devSession, rfl, { rv := .none, operation := some .cacerts, pathSeg := none },
      by decide +kernel, rfl, by decide +kernel, _, rfl, ?_⟩
    exact ⟨by decide +kernel, by decide +kernel, trivial⟩
  · exact hboth.2.mp (by decide +kernel)

/-- A path that names no operation is announced and never ended; the second answer to one
request begins where the first breaks off; and a second request for the certificates is
only ended. -/
theorem requests_not_bracketed :
    noticesOf (estHttpRequest hostCrypto hostAsn1 pathParser true certServer
        (getRequest "/.well-known/est/bogus") [[1000], [1000]]).events = [.reqStart] ∧
      (estHttpRequest hostCrypto hostAsn1 pathParser true certServer
        (getRequest "/.well-known/est/cacerts") [[1000], [-1], [1000], [1000]]).events.countP
          isStatusLine = 2 ∧
      ∃ last outs, run (bookedStep hostEnv) (startedServer .server 2 5683, fun _ => Book.empty)
          [⟨crtsPeer, .connected⟩, getCrts, getCrts] = some (last, outs) ∧
        ¬ (last.2 crtsPeer).Balanced := by
  refine ⟨by decide +kernel, by decide +kernel, ?_⟩
  have hrun : (run (bookedStep hostEnv) (startedServer .server 2 5683, fun _ => Book.empty)
        [⟨crtsPeer, .connected⟩, getCrts, getCrts]).map (fun result => (result.1.2 crtsPeer).done) =
      some [[.reqStart, .reqEnd], [.reqEnd]] := by
    decide +kernel
  obtain ⟨⟨last, outs⟩, hlast, hdone⟩ := Option.map_eq_some_iff.mp hrun
  refine ⟨last, outs, hlast, ?_⟩
  intro hbalanced
  have hend := hbalanced.done [.reqEnd] (by rw [hdone]; exact List.mem_cons_of_mem _ List.mem_cons_self)
  cases hend

end Instances

end LibEst.Server.Bracketing
