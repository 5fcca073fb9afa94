import LibEst.Server.Bracketing
import LibEst.Wire.Replies

/-! What a request comes to on the wire: the dispatcher of the server is followed to its
last write, and the bytes that got through are read by a client. -/
namespace LibEst.Wire.Dispatch

open LibEst.Basic LibEst.OpenSsl LibEst.Base64 LibEst.Lib.ByteString LibEst.Lib.Trace LibEst.Asn1
open LibEst.Server.AuthHeader LibEst.Server.CsrAttrs LibEst.Server.Routing
open LibEst.Server.HttpRequest LibEst.Server.Bracketing
open LibEst.Client.Context LibEst.Client.Http LibEst.Client.HeaderLines LibEst.Client.ResponseText
open LibEst.Client.KeygenRoundTrip (TransferText HasSymbol)
open LibEst.Wire.Message LibEst.Wire.Challenges LibEst.Wire.Replies

section Writing

/-- The bytes that got through. -/
def eventBytes : HttpEvent → Bytes
  | .notice _ => []
  | .wrote part sent => part.text.take sent

def writtenBytes (events : List HttpEvent) : Bytes := events.flatMap eventBytes

def GotThrough : HttpEvent → Prop
  | .notice _ => True
  | .wrote part sent => sent = part.text.length

instance : DecidablePred GotThrough
  | .notice _ => isTrue trivial
  | .wrote part sent => inferInstanceAs (Decidable (sent = part.text.length))

/-- Every write gets through as a whole. -/
def Through (events : List HttpEvent) : Prop := ∀ e ∈ events, GotThrough e

instance (events : List HttpEvent) : Decidable (Through events) :=
  inferInstanceAs (Decidable (∀ e ∈ events, GotThrough e))

/-- Where all writes get through, these bytes are written, and the value has a property. -/
def Writes {α : Type} (text : Bytes) (post : α → Prop) (t : Traced HttpEvent α) : Prop :=
  ∀ a, t.value = some a → Through t.events → writtenBytes t.events = text ∧ post a

variable {α β : Type} {front back : Bytes} {post : α → Prop} {last : β → Prop}

theorem through_append {events later : List HttpEvent} :
    Through (events ++ later) ↔ Through events ∧ Through later :=
  List.forall_mem_append

theorem writes_pure {a : α} (h : post a) : Writes [] post (pure a : Traced HttpEvent α) := by
  intro b hb _
  cases hb
  exact ⟨rfl, h⟩

theorem writes_bind {m : Traced HttpEvent α} {f : α → Traced HttpEvent β}
    (hm : Writes front post m) (hf : ∀ a, post a → Writes back last (f a)) :
    Writes (front ++ back) last (m >>= f) := by
  intro b hb hthrough
  obtain ⟨a, ha, hfa⟩ := bind_value_eq_some_iff.mp hb
  rw [bind_of_value_some ha] at hthrough ⊢
  obtain ⟨hfirst, hsecond⟩ := through_append.mp hthrough
  obtain ⟨hfront, hpost⟩ := hm a ha hfirst
  obtain ⟨hback, hlast⟩ := hf a hpost b hfa hsecond
  refine ⟨?_, hlast⟩
  rw [writtenBytes, List.flatMap_append]
  exact congrArg₂ (· ++ ·) hfront hback

/-- What follows writes nothing more. -/
theorem writes_bind_nil {m : Traced HttpEvent α} {f : α → Traced HttpEvent β}
    (hm : Writes front post m) (hf : ∀ a, post a → Writes [] last (f a)) :
    Writes front last (m >>= f) := by
  have hboth := writes_bind hm hf
  rwa [List.append_nil] at hboth

theorem writes_mgWrite (part : Part) (wire : Wire) :
    Writes part.text (fun result => result.1 = part.text.length) (mgWrite part wire) := by
  intro result hresult hthrough
  obtain ⟨-, rfl⟩ := (mgWrite_value part wire result).mp hresult
  have hsent : (push part.text.length (wire.headD []) 0).1 = part.text.length :=
    hthrough _ (List.mem_singleton.mpr rfl)
  refine ⟨?_, hsent⟩
  show eventBytes (.wrote part (push part.text.length (wire.headD []) 0).1) ++ [] = part.text
  rw [hsent, List.append_nil, eventBytes, List.take_length]

theorem writes_printParts (parts : List Part) (wire : Wire) :
    Writes (partsText parts) (fun _ => True) (printParts parts wire) := by
  induction parts generalizing wire with
  | nil => exact writes_pure trivial
  | cons part rest ih =>
    exact writes_bind (writes_mgWrite part wire) fun result _ => ih result.2

theorem writes_writeParts {parts : List Part} (hne : ∀ part ∈ parts, part.text ≠ []) (wire : Wire) :
    Writes (partsText parts) (fun result => result.1 = true) (writeParts parts wire) := by
  induction parts generalizing wire with
  | nil => exact writes_pure rfl
  | cons part rest ih =>
    refine writes_bind (writes_mgWrite part wire) fun result hresult => ?_
    have hpart : result.1 ≠ 0 := by
      rw [hresult]
      exact fun hzero => hne part List.mem_cons_self (List.length_eq_zero_iff.mp hzero)
    dsimp only
    rw [if_neg hpart]
    exact ih (fun p hp => hne p (List.mem_cons_of_mem part hp)) result.2

end Writing

section Decisions

variable (C : Crypto) (A : Asn1Ops) (U : UriParser) (brski : Bool) (S : HttpServer) (r : Request)

/-- An error as the client is told of it. -/
def errorView (rc : EstError) : View :=
  if rc = .caEnrollRetry then .retry S.retryPeriod else .refused r.keepAlive rc

/-- The type of the text that an operation is answered with. -/
def answerType : EstOperation → Option String
  | .cacerts => some "application/pkcs7-mime"
  | .simpleEnroll | .simpleReenroll => some "application/pkcs7-mime; smime-type=certs-only"
  | .csrattrs => some "application/csrattrs"
  | .brskiReqVoucher => some "application/voucher+cms"
  | .serverKeygen | .brskiVoucherStatus | .brskiEnrollStatus => none

/-- The answers of the handler of an operation that are not errors. -/
inductive Shows (operation : EstOperation) : Reply → View → Prop
  | content {contentType : String} {text : Bytes} (htype : answerType operation = some contentType)
      (htext : text ≠ []) :
      Shows operation (.content (contentParts contentType text)) (.content contentType text)
  | keys {key cert : Bytes} (hop : operation = .serverKeygen) (hkey : key ≠ []) (hcert : cert ≠ []) :
      Shows operation (.content (keygenParts key cert)) (.keys key cert)
  | retry : Shows operation (.content [.header (retryAfterHdr S.brskiRetryPeriod)])
      (.retry S.brskiRetryPeriod)
  | done (hop : LibEst.Client.Http.noContent operation = true) :
      Shows operation (.content [.header statusOk]) .done
  | noContent : Shows operation .noContent (.refused r.keepAlive .httpNoContent)
  | challenge : Shows operation .challenge (.challenged S.ctx.authMode S.realm r.now)

/-- What an operation comes to: the wrong method or type, an error of its handler, or the
answer of the handler. -/
inductive OperationDecides (ssl : Ssl) (pathSeg : Option Bytes) (operation : EstOperation) :
    View → Prop
  | wrong {rc : EstError} (h : wrongRequest operation r = some rc) :
      OperationDecides ssl pathSeg operation (errorView S r rc)
  | refused {rc : EstError} (hright : wrongRequest operation r = none)
      (h : handlerReply C A S r ssl pathSeg operation = some (.refused rc)) :
      OperationDecides ssl pathSeg operation (errorView S r (answeredAs operation rc))
  | answered {reply : Reply} {view : View} (hright : wrongRequest operation r = none)
      (h : handlerReply C A S r ssl pathSeg operation = some reply) (hview : Shows S r operation reply view) :
      OperationDecides ssl pathSeg operation view

/-- What a request comes to. -/
inductive Decides : View → Prop
  | noSsl (h : r.ssl = none) : Decides (errorView S r .noSslCtx)
  | badUri {ssl : Ssl} {parsed : ParsedUri} (hssl : r.ssl = some ssl)
      (huri : estParseUri U brski r.uri r.behindUri = some parsed) (h : parsed.rv ≠ .none) :
      Decides (errorView S r parsed.rv)
  | unknown {ssl : Ssl} {parsed : ParsedUri} (hssl : r.ssl = some ssl)
      (huri : estParseUri U brski r.uri r.behindUri = some parsed) (hrv : parsed.rv = .none)
      (h : ((parsed.operation.or r.stale).filter fun op => brski || !isBrski op) = none) :
      Decides (errorView S r .unknown)
  | operation {ssl : Ssl} {parsed : ParsedUri} {operation : EstOperation} {view : View}
      (hssl : r.ssl = some ssl) (huri : estParseUri U brski r.uri r.behindUri = some parsed)
      (hrv : parsed.rv = .none)
      (hop : ((parsed.operation.or r.stale).filter fun op => brski || !isBrski op) = some operation)
      (h : OperationDecides C A S r ssl parsed.pathSeg operation view) : Decides view

end Decisions

section Runs

variable {C : Crypto} {A : Asn1Ops} {U : UriParser} {brski : Bool} {S : HttpServer} {r : Request}
  {ssl : Ssl} {pathSeg : Option Bytes} {operation : EstOperation} {view : View}

theorem writes_estSendHttpError (rc : EstError) (wire : Wire) :
    Writes (errorView S r rc).text (fun _ => True) (estSendHttpError S r rc wire) := by
  unfold estSendHttpError errorView
  split
  · have hne : retryAfterHdr S.retryPeriod ≠ [] := by simp [retryAfterHdr, decimal_ne_nil]
    have htext : (View.retry S.retryPeriod).text = (Part.header (retryAfterHdr S.retryPeriod)).text :=
      List.append_nil _
    rw [htext]
    refine writes_bind_nil (writes_mgWrite _ wire) fun result hresult => ?_
    dsimp only
    rw [if_neg]
    · exact writes_pure trivial
    · rw [hresult]
      exact fun hzero => hne (List.length_eq_zero_iff.mp hzero)
  · exact writes_printParts _ wire

theorem writes_giveUp (sent rc : EstError) (wire : Wire) :
    Writes (errorView S r sent).text (fun _ => True) (giveUp S r sent rc wire) :=
  writes_bind_nil (writes_estSendHttpError sent wire) fun _ _ => writes_pure trivial

theorem writes_announceEnd : Writes [] (fun _ => True) announceEnd := by
  intro rc _ _
  exact ⟨rfl, trivial⟩

theorem contentParts_ne_nil {contentType : String} {text : Bytes} (h : text ≠ []) :
    ∀ part ∈ contentParts contentType text, part.text ≠ [] := by
  intro part hpart
  rcases List.mem_cons.mp hpart with rfl | hbody
  · simp [Part.text, contentHdr, decimal_ne_nil]
  · rw [List.mem_singleton.mp hbody]
    exact h

theorem keygenParts_ne_nil {key cert : Bytes} (hkey : key ≠ []) (hcert : cert ≠ []) :
    ∀ part ∈ keygenParts key cert, part.text ≠ [] := by
  have hfixed : LibEst.Server.KeygenResponse.pvtKeyHdr ≠ [] ∧
      LibEst.Server.KeygenResponse.certHdr ≠ [] ∧
      LibEst.Server.KeygenResponse.finalBndryHdr ≠ [] :=
    ⟨List.append_ne_nil_of_right_ne_nil _ ascii_ne_nil,
      List.append_ne_nil_of_right_ne_nil _ ascii_ne_nil,
      List.append_ne_nil_of_right_ne_nil _ ascii_ne_nil⟩
  intro part hpart
  simp only [keygenParts, LibEst.Server.KeygenResponse.keygenWrites, List.map_cons, List.map_nil,
    List.mem_cons, List.not_mem_nil, or_false] at hpart
  rcases hpart with rfl | rfl | rfl | rfl | rfl | rfl
  · simp [Part.text, LibEst.Server.KeygenResponse.httpHdr, decimal_ne_nil]
  · exact hfixed.1
  · exact hkey
  · exact hfixed.2.1
  · exact hcert
  · exact hfixed.2.2

/-- The writes of an answer, and the code behind them. -/
theorem writes_sendReply {reply : Reply} (h : Shows S r operation reply view) (wire : Wire) :
    Writes view.text (fun result => result.1 = .none ∨ result.1 = .authPending ∧ reply = .challenge)
      (sendReply S r reply wire) := by
  have hcontent {parts : List Part} (hne : ∀ part ∈ parts, part.text ≠ []) :
      Writes (partsText parts)
        (fun result => result.1 = .none ∨ result.1 = .authPending ∧ Reply.content parts = .challenge)
        (sendReply S r (.content parts) wire) := by
    refine writes_bind_nil (writes_writeParts hne wire) fun result hresult => ?_
    dsimp only
    rw [if_pos hresult]
    exact writes_pure (Or.inl rfl)
  cases h with
  | content htype htext => exact hcontent (contentParts_ne_nil htext)
  | keys hop hkey hcert => exact hcontent (keygenParts_ne_nil hkey hcert)
  | retry =>
    apply hcontent
    intro part hpart
    rw [List.mem_singleton.mp hpart]
    simp [Part.text, retryAfterHdr, decimal_ne_nil]
  | done hop =>
    apply hcontent
    intro part hpart
    rw [List.mem_singleton.mp hpart]
    decide
  | noContent =>
    refine writes_bind_nil (writes_printParts _ wire) fun _ _ => ?_
    exact writes_pure (Or.inl rfl)
  | challenge =>
    refine writes_bind_nil (writes_printParts _ wire) fun _ _ => ?_
    exact writes_pure (Or.inr ⟨rfl, rfl⟩)

theorem served_of_answer {reply : Reply} {rc : EstError}
    (hproper : Proper operation reply)
    (hrc : rc = .none ∨ rc = .authPending ∧ reply = .challenge) : served operation rc = true := by
  rcases hrc with rfl | ⟨rfl, hchallenge⟩
  · rfl
  · exact hproper.challenge hchallenge

theorem writes_emit (notice : LibEst.Coap.Handlers.EndpointNotice) :
    Writes [] (fun _ => True) (emit (HttpEvent.notice notice)) := by
  intro _ _ _
  exact ⟨rfl, trivial⟩

theorem writes_ofOption {α : Type} {value : Option α} {a : α} (h : value = some a) :
    Writes [] (fun b => b = a) (ofOption value : Traced HttpEvent α) := by
  intro b hb _
  exact ⟨rfl, Option.some.inj (hb.symm.trans h)⟩

/-- What comes before writes nothing. -/
theorem writes_nil_bind {α β : Type} {back : Bytes} {post : α → Prop} {last : β → Prop}
    {m : Traced HttpEvent α} {f : α → Traced HttpEvent β} (hm : Writes [] post m)
    (hf : ∀ a, post a → Writes back last (f a)) : Writes back last (m >>= f) :=
  writes_bind hm hf

theorem writes_handleOperation (h : OperationDecides C A S r ssl pathSeg operation view) (wire : Wire) :
    Writes view.text (fun _ => True) (handleOperation C A S r ssl pathSeg operation wire) := by
  unfold handleOperation
  cases h with
  | wrong hwrong =>
    rw [hwrong]
    exact writes_giveUp _ _ wire
  | refused hright hreply =>
    rename_i rc
    have hserved := (handlerReply_proper hreply).refused rc rfl
    rw [hright]
    refine writes_nil_bind (writes_ofOption hreply) fun reply heq => ?_
    rw [heq]
    have hrefused : Writes [] (fun result => result.1 = rc)
        (pure (rc, wire) : Traced HttpEvent (EstError × Wire)) := writes_pure rfl
    refine writes_nil_bind hrefused fun result hresult => ?_
    dsimp only
    rw [hresult, if_neg (by rw [hserved]; exact Bool.false_ne_true)]
    exact writes_giveUp _ _ result.2
  | answered hright hreply hview =>
    have hproper := handlerReply_proper hreply
    rw [hright]
    refine writes_nil_bind (writes_ofOption hreply) fun reply heq => ?_
    rw [heq]
    refine writes_bind_nil (writes_sendReply hview wire) fun result hresult => ?_
    dsimp only
    rw [if_pos (served_of_answer hproper hresult)]
    exact writes_announceEnd

theorem writes_estHttpRequest (hmode : S.ctx.estMode = .server)
    (h : Decides C A U brski S r view) (wire : Wire) :
    Writes view.text (fun _ => True) (estHttpRequest C A U brski S r wire) := by
  unfold estHttpRequest
  rw [if_neg (not_not.mpr hmode)]
  cases h with
  | noSsl hssl =>
    rw [hssl]
    exact writes_giveUp _ _ wire
  | badUri hssl huri hrv =>
    rw [hssl]
    refine writes_nil_bind (writes_emit _) fun _ _ => ?_
    refine writes_nil_bind (writes_ofOption huri) fun parsed heq => ?_
    rw [heq, if_pos hrv]
    exact writes_giveUp _ _ wire
  | unknown hssl huri hrv hop =>
    rw [hssl]
    refine writes_nil_bind (writes_emit _) fun _ _ => ?_
    refine writes_nil_bind (writes_ofOption huri) fun parsed heq => ?_
    rw [heq, if_neg (not_not.mpr hrv), hop]
    exact writes_bind_nil (writes_estSendHttpError _ wire) fun _ _ => writes_announceEnd
  | operation hssl huri hrv hop hdecides =>
    rw [hssl]
    refine writes_nil_bind (writes_emit _) fun _ _ => ?_
    refine writes_nil_bind (writes_ofOption huri) fun parsed heq => ?_
    rw [heq, if_neg (not_not.mpr hrv), hop]
    exact writes_handleOperation hdecides wire

end Runs

section Covered

variable {C : Crypto} {A : Asn1Ops} {U : UriParser} {brski : Bool} {S : HttpServer} {r : Request}
  {ssl : Ssl} {pathSeg : Option Bytes} {operation : EstOperation} {reply : Reply}

/-- No text of an answer is empty. -/
def Filled (reply : Reply) : Prop :=
  ∀ parts, reply = .content parts → ∀ part ∈ parts, part.text ≠ []

/-- An error, or an answer that shows something. -/
def Showable (S : HttpServer) (r : Request) (operation : EstOperation) (reply : Reply) : Prop :=
  (∃ rc, reply = .refused rc) ∨ ∃ view, Shows S r operation reply view

theorem showable_content {contentType : String} {text : Bytes}
    (htype : answerType operation = some contentType)
    (h : Filled (.content (contentParts contentType text))) :
    Showable S r operation (.content (contentParts contentType text)) := by
  have htext : text ≠ [] := h _ rfl (.body text) (by simp [contentParts])
  exact Or.inr ⟨_, Shows.content htype htext⟩

theorem showable_keys {key cert : Bytes} (h : Filled (.content (keygenParts key cert))) :
    Showable S r .serverKeygen (.content (keygenParts key cert)) := by
  have hmem (text : Bytes) (htext : text = key ∨ text = cert) :
      Part.body text ∈ keygenParts key cert := by
    rcases htext with rfl | rfl <;>
      simp [keygenParts, LibEst.Server.KeygenResponse.keygenWrites]
  have hkey : key ≠ [] := h _ rfl (.body key) (hmem key (Or.inl rfl))
  have hcert : cert ≠ [] := h _ rfl (.body cert) (hmem cert (Or.inr rfl))
  exact Or.inr ⟨_, Shows.keys rfl hkey hcert⟩

theorem showable_refused (rc : EstError) : Showable S r operation (.refused rc) := Or.inl ⟨rc, rfl⟩

/-- The operations of the three handlers of enrollments. -/
def Enrolls : EstOperation → EnrollReqType → Prop
  | .simpleEnroll, .simpleEnroll | .simpleReenroll, .reenroll | .serverKeygen, .serverKeygen => True
  | _, _ => False

theorem showable_enroll {enrollReq : EnrollReqType} {out : LibEst.Server.Enroll.Outcome}
    (hop : Enrolls operation enrollReq) (h : Filled (enrollReply enrollReq out)) :
    Showable S r operation (enrollReply enrollReq out) := by
  unfold enrollReply at h ⊢
  split
  · rename_i hnone
    rw [if_pos hnone] at h
    cases operation <;> cases enrollReq <;> try exact absurd hop not_false
    · exact showable_content rfl h
    · exact showable_content rfl h
    · exact showable_keys h
  · split
    · exact Or.inr ⟨_, Shows.challenge⟩
    · exact showable_refused _

theorem showable_csrAttrs {answer : AttrsResponse} (h : Filled (csrAttrsReply answer)) :
    Showable S r .csrattrs (csrAttrsReply answer) := by
  unfold csrAttrsReply at h ⊢
  split
  · exact showable_refused _
  · rename_i hrc
    rw [if_neg hrc] at h
    cases hsent : answer.sent with
    | none => exact Or.inr ⟨_, Shows.noContent⟩
    | some text =>
      rw [hsent] at h
      exact showable_content rfl h

theorem showable_brski {contentTypes : List String} {contentType : Bytes} {α : Type}
    {callback : Option (Bytes → Option X509 → α)} {answered : α → Reply}
    (hanswered : ∀ a, Filled (answered a) → Showable S r operation (answered a))
    (h : brskiReply C S r ssl pathSeg contentTypes contentType callback answered = some reply)
    (hfilled : Filled reply) : Showable S r operation reply := by
  unfold brskiReply at h
  split at h
  · cases h
    exact showable_refused _
  · split at h
    · cases h
      exact showable_refused _
    · obtain ⟨auth, -, rfl⟩ := Option.map_eq_some_iff.mp h
      cases hstate : auth.state <;> rw [hstate] at hfilled
      · exact showable_refused _
      · exact showable_refused _
      · exact hanswered _ hfilled
      · exact Or.inr ⟨_, Shows.challenge⟩
      · exact hanswered _ hfilled
      · exact hanswered _ hfilled

theorem showable_status (hop : LibEst.Client.Http.noContent operation = true)
    (answer : BrskiCallbackRc) : Showable S r operation (statusAnswer answer) := by
  unfold statusAnswer
  split
  · exact Or.inr ⟨_, Shows.done hop⟩
  · exact showable_refused _

theorem showable_voucher (answer : BrskiCallbackRc × Option Bytes)
    (h : Filled (voucherAnswer S answer)) :
    Showable S r .brskiReqVoucher (voucherAnswer S answer) := by
  unfold voucherAnswer at h ⊢
  split
  · exact showable_content rfl h
  · exact Or.inr ⟨_, Shows.retry⟩
  · exact showable_refused _

/-- Every handler gives an error or shows something, unless a text to be sent is empty. -/
theorem handlerReply_showable (h : handlerReply C A S r ssl pathSeg operation = some reply)
    (hfilled : Filled reply) : Showable S r operation reply := by
  cases operation with
  | cacerts =>
    cases h
    unfold estServerHandleCacerts at hfilled ⊢
    dsimp only at hfilled ⊢
    split
    · rename_i certs hcerts
      rw [hcerts] at hfilled
      exact showable_content rfl hfilled
    · exact showable_refused _
  | csrattrs =>
    obtain ⟨answer, -, rfl⟩ := Option.map_eq_some_iff.mp h
    exact showable_csrAttrs hfilled
  | simpleEnroll | simpleReenroll | serverKeygen =>
    obtain ⟨out, -, rfl⟩ := Option.map_eq_some_iff.mp h
    exact showable_enroll trivial hfilled
  | brskiReqVoucher => exact showable_brski showable_voucher h hfilled
  | brskiVoucherStatus | brskiEnrollStatus =>
    exact showable_brski (fun answer _ => showable_status rfl answer) h hfilled

/-- An empty text counts as one that did not get through. -/
theorem writeParts_filled {parts : List Part} {wire last : Wire}
    (h : (writeParts parts wire).value = some (true, last)) : ∀ part ∈ parts, part.text ≠ [] := by
  have hout := (writeParts_value parts wire).mp ⟨last, h⟩
  clear h
  induction parts generalizing wire with
  | nil => simp
  | cons part rest ih =>
    intro p hp
    rcases List.mem_cons.mp hp with rfl | hrest
    · intro hnil
      apply hout.1.2
      rw [hnil]
      cases wire.headD [] <;> rfl
    · exact ih hout.2 p hrest

theorem filled_of_written {wire last : Wire} {rc : EstError}
    (h : (sendReply S r reply wire).value = some (rc, last)) (hrc : rc ≠ .httpWrite) :
    Filled reply := by
  rintro parts rfl
  simp only [sendReply, bind_pure_eq, Option.map_eq_some_iff, Prod.mk.injEq] at h
  obtain ⟨⟨written, _⟩, hvalue, hcode, -⟩ := h
  cases written with
  | true => exact writeParts_filled hvalue
  | false => exact absurd hcode.symm hrc

theorem giveUp_value {sent rc code : EstError} {wire : Wire}
    (h : (giveUp S r sent rc wire).value = some code) : code = rc := by
  obtain ⟨_, -, hpure⟩ := bind_value_eq_some_iff.mp h
  exact (Option.some.inj hpure).symm

theorem operation_decided {wire : Wire} {rc : EstError}
    (h : (handleOperation C A S r ssl pathSeg operation wire).value = some rc)
    (hrc : rc ≠ .httpWrite) : ∃ view, OperationDecides C A S r ssl pathSeg operation view := by
  unfold handleOperation at h
  cases hwrong : wrongRequest operation r with
  | some code => exact ⟨_, .wrong hwrong⟩
  | none =>
    rw [hwrong] at h
    obtain ⟨reply, hreply, hrest⟩ := bind_value_eq_some_iff.mp h
    obtain ⟨⟨code, last⟩, hsent, hend⟩ := bind_value_eq_some_iff.mp hrest
    have hcode : code ≠ .httpWrite := by
      rintro rfl
      exact hrc (giveUp_value hend)
    rcases handlerReply_showable hreply (filled_of_written hsent hcode) with
      ⟨refusal, rfl⟩ | ⟨view, hview⟩
    · exact ⟨_, .refused hwrong hreply⟩
    · exact ⟨view, .answered hwrong hreply hview⟩

/-- A request that is served to its end without a failed write comes to something. -/
theorem request_decided (hmode : S.ctx.estMode = .server) {wire : Wire} {rc : EstError}
    (h : (estHttpRequest C A U brski S r wire).value = some rc) (hrc : rc ≠ .httpWrite) :
    ∃ view, Decides C A U brski S r view := by
  unfold estHttpRequest at h
  rw [if_neg (not_not.mpr hmode)] at h
  cases hssl : r.ssl with
  | none => exact ⟨_, .noSsl hssl⟩
  | some ssl =>
    rw [hssl] at h
    obtain ⟨_, -, hparse⟩ := bind_value_eq_some_iff.mp h
    obtain ⟨parsed, huri, hrest⟩ := bind_value_eq_some_iff.mp hparse
    by_cases hrv : parsed.rv = .none
    · rw [if_neg (not_not.mpr hrv)] at hrest
      cases hop : (parsed.operation.or r.stale).filter fun op => brski || !isBrski op with
      | none => exact ⟨_, .unknown hssl huri hrv hop⟩
      | some operation =>
        rw [hop] at hrest
        obtain ⟨view, hview⟩ := operation_decided hrest hrc
        exact ⟨view, .operation hssl huri hrv hop hview⟩
    · exact ⟨_, .badUri hssl huri hrv⟩

end Covered

section Received

variable {C : Crypto} {A : Asn1Ops} {U : UriParser} {brski : Bool} {S : HttpServer} {r : Request}
  {view : View} {op : EstOperation}

/-- The conditions on what the server has been given to send. -/
def Legible : View → Prop
  | .content _ text => Whole text
  | .keys key cert =>
      TransferText 256 8192 key ∧ TransferText 128 4096 cert ∧ HasSymbol key ∧ HasSymbol cert
  | .done | .refused _ _ => True
  | .retry delay => delay < 2 ^ 31
  | .challenged mode realm now =>
      Challenging mode ∧ Plain realm now ∧ scanBoundary (challengeValue mode realm now) = .silent

/-- The server takes a request for an operation for no other one. -/
def AsksFor (U : UriParser) (brski : Bool) (r : Request) (op : EstOperation) : Prop :=
  ∀ parsed operation, estParseUri U brski r.uri r.behindUri = some parsed →
    ((parsed.operation.or r.stale).filter fun op => brski || !isBrski op) = some operation →
    operation = op

theorem errorView_fits {rc : EstError} (h : Legible (errorView S r rc)) :
    (errorView S r rc).Fits op := by
  unfold errorView at h ⊢
  split
  · rename_i hretry
    rwa [if_pos hretry] at h
  · trivial

/-- The server labels its answers as the client of the operation expects it. -/
theorem answerType_expected {contentType : String} (h : answerType op = some contentType) :
    op ≠ .serverKeygen ∧ LibEst.Client.Http.noContent op = false ∧
      LibEst.Client.Http.contentType op <+: ascii contentType ∧
      (∀ c ∈ ascii contentType, LineByte c) ∧ (ascii contentType).head? ≠ some 32 ∧
      (ascii contentType).length ≤ 100 := by
  cases op <;> cases h
  all_goals
    refine ⟨by decide, by decide, List.prefix_refl _, ascii_forall (by decide), ?_,
      ascii_length_le (by decide)⟩
    rw [ascii_ofList]
    decide

theorem shows_fits {reply : Reply} (h : Shows S r op reply view) (hlegible : Legible view) :
    view.Fits op := by
  cases h with
  | content htype htext =>
    obtain ⟨hkeygen, hcontent, hexpected, hline, hfront, hshort⟩ := answerType_expected htype
    exact ⟨hkeygen, hcontent, hexpected, hline, hfront, hshort, hlegible⟩
  | keys hop hkey hcert => exact ⟨hop, hlegible⟩
  | retry => exact hlegible
  | done hop => exact hop
  | noContent => trivial
  | challenge => exact hlegible

theorem operationDecides_fits {ssl : Ssl} {pathSeg : Option Bytes}
    (h : OperationDecides C A S r ssl pathSeg op view) (hlegible : Legible view) : view.Fits op := by
  cases h with
  | wrong _ | refused _ _ => exact errorView_fits hlegible
  | answered _ _ hview => exact shows_fits hview hlegible

theorem decides_fits (h : Decides C A U brski S r view) (hop : AsksFor U brski r op)
    (hlegible : Legible view) : view.Fits op := by
  cases h with
  | noSsl _ | badUri _ _ _ | unknown _ _ _ _ => exact errorView_fits hlegible
  | operation hssl huri hrv hoperation hdecides =>
    obtain rfl := hop _ _ huri hoperation
    exact operationDecides_fits hdecides hlegible

end Received

section Instances

open LibEst.Coap.ReferenceEnv LibEst.Server.Reference LibEst.Server.RoutingExact

/-- A request for the certificates whose answer takes two writes. -/
def certRun : Traced HttpEvent EstError :=
  estHttpRequest hostCrypto hostAsn1 pathParser true certServer (getRequest "/.well-known/est/cacerts")
    [[127], [5]]

end Instances

end LibEst.Wire.Dispatch
