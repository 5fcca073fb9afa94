import LibEst.Lib.Trace
import LibEst.Coap.Handlers
import LibEst.Server.Connection
import LibEst.Server.KeygenResponse
import LibEst.Server.Routing

/-! The dispatcher of the HTTP server, from a request that has been read to the last
byte of the answer. Every text goes out by a call of its own, and each call may stop
short; the notices to the application stand between the writes. -/
namespace LibEst.Server.HttpRequest

open LibEst.Basic LibEst.OpenSsl LibEst.Base64 LibEst.Lib.ByteString LibEst.Lib.Trace LibEst.Asn1
open LibEst.Coap.Handlers (EndpointNotice)
open LibEst.Server.AuthHeader LibEst.Server.Context LibEst.Server.EnrollAuth
open LibEst.Server.CsrAttrs LibEst.Server.Enroll LibEst.Server.Connection
open LibEst.Server.KeygenResponse LibEst.Server.Routing

section Wire

/-- A text that is handed to `mg_write`: one that begins with a status line, or what
stands behind such a text. -/
inductive Part where
  | header (text : Bytes)
  | body (text : Bytes)
  deriving DecidableEq

def Part.text : Part → Bytes
  | .header text | .body text => text

inductive HttpEvent where
  | notice (notice : EndpointNotice)
  /-- A write, and how many of its bytes got through. -/
  | wrote (part : Part) (sent : Nat)
  deriving DecidableEq

/-- What `SSL_write` returns to each write of a request, call by call. -/
abbrev Wire := List (List Int)

/-- The loop of `push`: the bytes that got through, and whether it came to an end. It
goes on for as long as it is told that zero bytes were written. -/
def push (len : Nat) : List Int → Nat → Nat × Bool
  | [], sent => (sent, len ≤ sent)
  | n :: rest, sent =>
      if len ≤ sent then (sent, true)
      else if n < 0 then (sent, true)
      else push len rest (sent + n.toNat)

def mgWrite (part : Part) (wire : Wire) : Traced HttpEvent (Nat × Wire) :=
  let (sent, returned) := push part.text.length (wire.headD []) 0
  ⟨[.wrote part sent], if returned then some (sent, wire.tail) else none⟩

/-- Texts one after another up to the first of which nothing gets through; whether all
of them were written. -/
def writeParts : List Part → Wire → Traced HttpEvent (Bool × Wire)
  | [], wire => pure (true, wire)
  | part :: rest, wire => do
      let (sent, wire) ← mgWrite part wire
      if sent = 0 then pure (false, wire) else writeParts rest wire

/-- Texts one after another by `mg_printf`, where nobody asks what became of them. -/
def printParts : List Part → Wire → Traced HttpEvent Wire
  | [], wire => pure wire
  | part :: rest, wire => do
      let (_, wire) ← mgWrite part wire
      printParts rest wire

end Wire

section Texts

def eol : Bytes := ascii "\r\n"

def statusOk : Bytes := ascii "HTTP/1.1 200 OK\r\nStatus: 200 OK\r\n"

/-- The header of an answer in base64. -/
def contentHdr (contentType : String) (content : Bytes) : Bytes :=
  statusOk ++ ascii "Content-Type: " ++ ascii contentType ++ eol ++
    ascii "Content-Transfer-Encoding: base64\r\n" ++
    ascii "Content-Length: " ++ decimal content.length ++ eol ++ eol

def contentParts (contentType : String) (content : Bytes) : List Part :=
  [.header (contentHdr contentType content), .body content]

def keygenParts (key cert : Bytes) : List Part :=
  match keygenWrites key cert with
  | header :: bodies => .header header :: bodies.map .body
  | [] => []

def retryAfterHdr (delay : Nat) : Bytes :=
  ascii "HTTP/1.1 202 Accepted\r\nStatus: 202 Accepted\r\nRetry-After: " ++ decimal delay ++ eol ++ eol

/-- Status, reason and text of the answers to errors. -/
def errorText : EstError → Nat × String × String
  | .httpNoContent => (204, "No Content", "")
  | .httpBadReq => (400, "Bad Request", "")
  | .csrAttrMissing => (400, "Bad Request", "CSR Attributes missing in request.\n")
  | .badAsn1Hex => (400, "Bad Request", "Invalid or corrupted ASN1 data in request.\n")
  | .badPkcs10 => (400, "Bad Request", "Invalid or corrupted pkcs10 request.\n")
  | .badContentType => (400, "Bad Request", "Invalid content type used.\n")
  | .wrongMethod =>
      (400, "Bad Request", "Invalid HTTP method used.  Either GET or POST required " ++
        "depending on the request type.\n")
  | .noSslCtx => (400, "Bad Request", "An unknown TLS error has occured.\n")
  | .authFail => (401, "Unauthorized", "The server was unable to authorize the request.\n")
  | .authFailTlsuid => (401, "Unauthorized", "Proof of Possession Mismatch.\n")
  | .httpNotFound =>
      (404, "Not Found", "Requested content is currently not available on the server.\n")
  | .httpInvalidPathSegment => (404, "Not Found", "The path specified is not recognized.\n")
  | .httpLocked => (423, "Locked", "The content attempted to be accessed is locked.\n")
  | .httpUnsupported =>
      (502, "Bad Gateway", "An error occurred while communicating to the upstream server.\n")
  | .ipConnect =>
      (504, "Gateway Time-out", "There was an issue connecting to the upstream server.\n")
  | .caEnrollFail => (500, "Internal Server Error", "An error has occured during enrollment.\n")
  | _ => (500, "Internal Server Error", "An unknown error has occured.\n")

/-- The two texts of `mg_send_http_error`; an answer without content has one. -/
def errorParts (keepAlive : Bool) (rc : EstError) : List Part :=
  let (status, reason, text) := errorText rc
  let body : Bytes :=
    if status ≠ 204 then
      ascii "Error " ++ decimal status ++ ascii ": " ++ ascii reason ++ ascii "\n" ++ ascii text
    else []
  let connection : String := if keepAlive ∧ status < 400 then "keep-alive" else "close"
  let header : Bytes :=
    ascii "HTTP/1.1 " ++ decimal status ++ ascii " " ++ ascii reason ++ eol ++
      ascii "Content-Length: " ++ decimal body.length ++ eol ++
      ascii "Connection: " ++ ascii connection ++ eol ++ eol
  if body = [] then [.header header] else [.header header, .body body]

/-- The challenge of `mg_send_authorization_request`; the nonce is the time. -/
def challengeParts (authMode : AuthMode) (realm : Bytes) (now : Nat) : List Part :=
  let challenge (scheme : Bytes) : List Part :=
    [.header (ascii "HTTP/1.1 401 Unauthorized\r\nContent-Length: 0\r\nWWW-Authenticate: " ++
      scheme ++ eol ++ eol)]
  let named (scheme : String) : Bytes := ascii scheme ++ ascii "realm=\"" ++ realm ++ ascii "\""
  match authMode with
  | .basic => challenge (named "Basic ")
  | .digest =>
      challenge (named "Digest qop=\"auth\", " ++ ascii ", nonce=\"" ++ decimal now ++ ascii "\"")
  | .token => challenge (named "Bearer ")
  | _ => []

end Texts

section Handlers

inductive BrskiCallbackRc where
  | success
  | retry
  | invalidParameter
  | failure
  deriving DecidableEq

/-- The server as a request over HTTP finds it: its context, and what only the answers
need of it. -/
structure HttpServer where
  ctx : EstCtx
  http : ctx.transportMode = .http
  realm : Bytes
  retryPeriod : Nat
  brskiRetryPeriod : Nat
  estGetCacertsCb : Option (Option Bytes → Option Bytes)
  caCerts : Option Bytes
  estBrskiVoucherReqCb : Option (Bytes → Option X509 → BrskiCallbackRc × Option Bytes)
  estBrskiVoucherStatusCb : Option (Bytes → Option X509 → BrskiCallbackRc)
  estBrskiEnrollStatusCb : Option (Bytes → Option X509 → BrskiCallbackRc)

/-- What `est_http_request` is called with, and the parts of the connection that it
reads. -/
structure Request where
  conn : MgConnection
  ssl : Option Ssl
  method : Bytes
  uri : Bytes
  /-- The memory behind the zero that ends the URI. -/
  behindUri : Bytes
  body : Bytes
  contentType : Option Bytes
  keepAlive : Bool
  now : Nat
  /-- What is in the variable for the operation before it is set. -/
  stale : Option EstOperation

/-- What a handler has decided before it writes: an error, the challenge of a client
without credentials, an answer, or that there is none to give. -/
inductive Reply where
  | refused (rc : EstError)
  | challenge
  | content (parts : List Part)
  | noContent
  deriving DecidableEq

variable (C : Crypto) (A : Asn1Ops) (S : HttpServer)

def estServerHandleCacerts (pathSeg : Option Bytes) : Reply :=
  let certs :=
    match S.estGetCacertsCb with
    | some cb => cb pathSeg
    | none => S.caCerts
  match certs with
  | some certs => .content (contentParts "application/pkcs7-mime" certs)
  | none => .refused .httpNoContent

/-- What an enrollment comes to whose writes all get through. -/
def enrollOutcome (r : Request) (ssl : Ssl) (contentType : Bytes) (pathSeg : Option Bytes)
    (enrollReq : EnrollReqType) : Option Outcome :=
  estHandleEnroll C A S.ctx r.conn
    { ssl := ssl, peerCert := ssl.peerCert, contentType := contentType, body := r.body
      pathSeg := pathSeg, writes := true } enrollReq

def enrollReply (enrollReq : EnrollReqType) (out : Outcome) : Reply :=
  if out.rc = .none then
    match enrollReq with
    | .serverKeygen => .content (keygenParts (out.key.getD []) (out.cert.getD []))
    | _ =>
        .content
          (contentParts "application/pkcs7-mime; smime-type=certs-only" (out.cert.getD []))
  else if out.rc = .authPending then .challenge
  else .refused out.rc

def csrAttrsReply (answer : AttrsResponse) : Reply :=
  if answer.rc ≠ .none then .refused answer.rc
  else
    match answer.sent with
    | some text => .content (contentParts "application/csrattrs" text)
    | none => .noContent

/-- The way of the three BRSKI handlers to the callback of the application. -/
def brskiReply (r : Request) (ssl : Ssl) (pathSeg : Option Bytes) (contentTypes : List String)
    (contentType : Bytes) {α : Type} (callback : Option (Bytes → Option X509 → α))
    (answered : α → Reply) : Option Reply :=
  match callback with
  | none => some (.refused .nullCallback)
  | some cb =>
      if contentTypes.all fun expected => contentType ≠ ascii expected then
        some (.refused .badContentType)
      else
        (estBrskiAuth C S.ctx r.conn ssl pathSeg).map fun auth =>
          match auth.state with
          | .httpAuth | .srpAuth | .certAuth => answered (cb r.body ssl.peerCert)
          | .httpAuthPending => .challenge
          | _ => .refused .authFail

def voucherAnswer : BrskiCallbackRc × Option Bytes → Reply
  | (.success, some (c :: cs)) => .content (contentParts "application/voucher+cms" (c :: cs))
  | (.retry, _) => .content [.header (retryAfterHdr S.brskiRetryPeriod)]
  | _ => .refused .caEnrollFail

/-- The header ends without the empty line that a header ends with. -/
def statusAnswer : BrskiCallbackRc → Reply
  | .success => .content [.header statusOk]
  | _ => .refused .caEnrollFail

/-- The handler of an operation, up to its first write. -/
def handlerReply (r : Request) (ssl : Ssl) (pathSeg : Option Bytes) (operation : EstOperation) :
    Option Reply :=
  let contentType := r.contentType.getD []
  match operation with
  | .cacerts => some (estServerHandleCacerts S pathSeg)
  | .csrattrs => (estHandleCsrAttrs C A S.ctx ssl.peerCert pathSeg).map csrAttrsReply
  | .simpleEnroll =>
      (enrollOutcome C A S r ssl contentType pathSeg .simpleEnroll).map (enrollReply .simpleEnroll)
  | .simpleReenroll =>
      (enrollOutcome C A S r ssl contentType pathSeg .reenroll).map (enrollReply .reenroll)
  | .serverKeygen =>
      (enrollOutcome C A S r ssl contentType pathSeg .serverKeygen).map (enrollReply .serverKeygen)
  | .brskiReqVoucher =>
      brskiReply C S r ssl pathSeg
        ["application/pkcs7-mime; smime-type=voucher-request", "application/json"] contentType
        S.estBrskiVoucherReqCb (voucherAnswer S)
  | .brskiVoucherStatus =>
      brskiReply C S r ssl pathSeg ["application/json"] contentType S.estBrskiVoucherStatusCb
        statusAnswer
  | .brskiEnrollStatus =>
      brskiReply C S r ssl pathSeg ["application/json"] contentType S.estBrskiEnrollStatusCb
        statusAnswer

/-- The writes of a handler, and what it returns after them. -/
def sendReply (r : Request) (reply : Reply) (wire : Wire) : Traced HttpEvent (EstError × Wire) :=
  match reply with
  | .refused rc => pure (rc, wire)
  | .challenge => do
      let wire ← printParts (challengeParts S.ctx.authMode S.realm r.now) wire
      pure (.authPending, wire)
  | .content parts => do
      let (written, wire) ← writeParts parts wire
      pure (if written then .none else .httpWrite, wire)
  | .noContent => do
      let wire ← printParts (errorParts r.keepAlive .httpNoContent) wire
      pure (.none, wire)

end Handlers

section Dispatcher

variable (C : Crypto) (A : Asn1Ops) (U : UriParser) (brski : Bool) (S : HttpServer)

/-- A retry that does not get through is answered with an error after all. -/
def estSendHttpError (r : Request) (rc : EstError) (wire : Wire) : Traced HttpEvent Wire :=
  if rc = .caEnrollRetry then do
    let (sent, wire) ← mgWrite (.header (retryAfterHdr S.retryPeriod)) wire
    if sent = 0 then printParts (errorParts r.keepAlive .unknown) wire else pure wire
  else printParts (errorParts r.keepAlive rc) wire

def isBrski : EstOperation → Bool
  | .brskiReqVoucher | .brskiVoucherStatus | .brskiEnrollStatus => true
  | _ => false

/-- The method and the content type. The method of a request for attributes is compared
up to its end, the others by their first letters. -/
def wrongRequest (operation : EstOperation) (r : Request) : Option EstError :=
  match operation with
  | .cacerts => if ascii "GET" <+: r.method then none else some .wrongMethod
  | .csrattrs => if r.method = ascii "GET" then none else some .wrongMethod
  | _ =>
      if ¬ ascii "POST" <+: r.method then some .wrongMethod
      else if r.contentType = none then some .badContentType
      else none

/-- The codes of a handler after which a request counts as served. -/
def served (operation : EstOperation) (rc : EstError) : Bool :=
  rc = .none ∨ (rc = .authPending ∧ operation ≠ .cacerts ∧ operation ≠ .csrattrs)

/-- The code that an error is answered with. -/
def answeredAs (operation : EstOperation) (rc : EstError) : EstError :=
  if isBrski operation ∧ rc ≠ .authFail then .badPkcs10 else rc

/-- An error exit: the answer, and no notice. -/
def giveUp (r : Request) (sent rc : EstError) (wire : Wire) : Traced HttpEvent EstError := do
  let _ ← estSendHttpError S r sent wire
  pure rc

def announceEnd : Traced HttpEvent EstError := do
  emit (.notice .reqEnd)
  pure .none

def handleOperation (r : Request) (ssl : Ssl) (pathSeg : Option Bytes) (operation : EstOperation)
    (wire : Wire) : Traced HttpEvent EstError :=
  match wrongRequest operation r with
  | some rc => giveUp S r rc rc wire
  | none => do
      let reply ← ofOption (handlerReply C A S r ssl pathSeg operation)
      let (rc, wire) ← sendReply S r reply wire
      if served operation rc then announceEnd else giveUp S r (answeredAs operation rc) rc wire

def estHttpRequest (r : Request) (wire : Wire) : Traced HttpEvent EstError :=
  if S.ctx.estMode ≠ .server then pure .badMode
  else
    match r.ssl with
    | none => giveUp S r .noSslCtx .noSslCtx wire
    | some ssl => do
        emit (.notice .reqStart)
        let parsed ← ofOption (estParseUri U brski r.uri r.behindUri)
        if parsed.rv ≠ .none then giveUp S r parsed.rv parsed.rv wire
        else
          -- a path without segments leaves the variable as it was
          match (parsed.operation.or r.stale).filter fun op => brski || !isBrski op with
          | some operation => handleOperation C A S r ssl parsed.pathSeg operation wire
          | none => do
              let _ ← estSendHttpError S r .unknown wire
              announceEnd

end Dispatcher

section Agreement

variable {C : Crypto} {A : Asn1Ops} {ctx : EstCtx} {conn : MgConnection}
  {enrollReq : EnrollReqType}

/-- The status of an error is the one that the connection keeps. -/
theorem errorText_status {rc : EstError} (h : rc ≠ .caEnrollRetry) :
    errorStatus true rc = (errorText rc).1 := by
  cases rc <;> first | rfl | exact absurd rfl h

/-- What a handler returns where the writes at its end do not all get through. -/
def afterWrites (ctx : EstCtx) (written : Bool) (rc : EstError) : EstError :=
  if rc = .none ∧ ctx.transportMode = .http ∧ written = false then .httpWrite else rc

theorem afterWrites_of_ne {rc : EstError} (h : rc ≠ .none) (written : Bool) :
    afterWrites ctx written rc = rc := if_neg fun hall => h hall.1

theorem caResult_afterWrites (r : EnrollRequest) (answer : CaAnswer) (written : Bool) :
    caResult ctx { r with writes := written } answer =
      afterWrites ctx written (caResult ctx { r with writes := true } answer) := by
  unfold caResult
  by_cases hissued : answer.rv = .none ∧ answer.cert ≠ []
  · simp only [if_pos hissued]
    cases written <;> simp [afterWrites]
  · simp only [if_neg hissued]
    split
    · exact (afterWrites_of_ne (by decide) written).symm
    · exact (afterWrites_of_ne (by decide) written).symm

/-- The outcomes agree up to the writes. -/
def Agree (ctx : EstCtx) (written : Bool) (out out' : Option Outcome) : Prop :=
  out.map Outcome.rc = out'.map fun out => afterWrites ctx written out.rc

theorem agree_refuse {rc : EstError} (h : rc ≠ .none) (written : Bool) (auth : Option AuthResult)
    (conn : MgConnection) :
    Agree ctx written (some (refuse rc auth conn)) (some (refuse rc auth conn)) := by
  simp only [Agree, Option.map_some, refuse, afterWrites_of_ne h]

theorem agree_admitted (r : EnrollRequest) (written : Bool)
    {next next' : AuthResult → X509Req → Option Outcome}
    (h : ∀ auth csr, Agree ctx written (next auth csr) (next' auth csr)) :
    Agree ctx written (admitted C ctx conn { r with writes := written } enrollReq next)
      (admitted C ctx conn { r with writes := true } enrollReq next') := by
  unfold admitted
  dsimp only
  split
  · exact agree_refuse (by decide) _ _ _
  · cases hauth : estEnrollAuth C ctx conn r.ssl r.pathSeg enrollReq r.body with
    | none => rfl
    | some auth =>
      simp only [Option.bind_eq_bind, Option.bind_some]
      cases hstate : authError auth.state with
      | some rc =>
        apply agree_refuse
        intro hnone
        rw [hnone] at hstate
        revert hstate
        cases auth.state <;> decide
      | none =>
        dsimp only
        split
        · exact agree_refuse (by decide) _ _ _
        · exact h auth _

theorem agree_checked (r : EnrollRequest) (csr : X509Req) (body : Bytes) (written : Bool)
    (auth : AuthResult) {ask ask' : Outcome}
    (h : Agree ctx written (some ask) (some ask')) :
    Agree ctx written
      ((requestChecks C A ctx { r with writes := written } csr body).map fun rc =>
        if rc ≠ .none then refuse rc (some auth) auth.conn else ask)
      ((requestChecks C A ctx { r with writes := true } csr body).map fun rc =>
        if rc ≠ .none then refuse rc (some auth) auth.conn else ask') := by
  have hsame : requestChecks C A ctx { r with writes := written } csr body =
      requestChecks C A ctx { r with writes := true } csr body := rfl
  rw [hsame]
  cases requestChecks C A ctx { r with writes := true } csr body with
  | none => rfl
  | some rc =>
    simp only [Option.map_some]
    by_cases hrc : rc = .none
    · simp only [hrc, ne_eq, not_true_eq_false, if_false]
      exact h
    · simp only [hrc, ne_eq, not_false_eq_true, if_true]
      exact agree_refuse hrc written _ _

theorem rekey_error {csr : X509Req} {privKey : EvpPkey} {rc : EstError}
    (h : rekey C ctx csr privKey = .error rc) : rc ≠ .none := by
  unfold rekey at h
  split at h
  · cases h
    decide
  · split at h
    · cases h
      decide
    · split at h
      · cases h
        decide
      · cases h

theorem agree_simple (r : EnrollRequest) (written : Bool)
    (callback : Option (CaRequest → CaAnswer)) : Agree ctx written
      (match callback with
        | none => some (refuse .nullCallback none conn)
        | some cb => admitted C ctx conn { r with writes := written } enrollReq fun auth csr =>
          if estServerCheckCsr C csr ≠ 0 then some (refuse .badPkcs10 (some auth) auth.conn)
          else (requestChecks C A ctx { r with writes := written } csr r.body).map fun rc =>
            if rc ≠ .none then refuse rc (some auth) auth.conn
            else askCa ctx cb { r with writes := written } enrollReq auth)
      (match callback with
        | none => some (refuse .nullCallback none conn)
        | some cb => admitted C ctx conn { r with writes := true } enrollReq fun auth csr =>
          if estServerCheckCsr C csr ≠ 0 then some (refuse .badPkcs10 (some auth) auth.conn)
          else (requestChecks C A ctx { r with writes := true } csr r.body).map fun rc =>
            if rc ≠ .none then refuse rc (some auth) auth.conn
            else askCa ctx cb { r with writes := true } enrollReq auth) := by
  have hask : ∀ cb auth, Agree ctx written
      (some (askCa ctx cb { r with writes := written } enrollReq auth))
      (some (askCa ctx cb { r with writes := true } enrollReq auth)) := by
    intro cb auth
    simp only [Agree, Option.map_some, askCa, Option.some.injEq]
    exact caResult_afterWrites r _ written
  cases callback with
  | none => exact agree_refuse (by decide) _ _ _
  | some cb =>
    apply agree_admitted
    intro auth csr
    split
    · exact agree_refuse (by decide) _ _ _
    · exact agree_checked r csr r.body written auth (hask cb auth)

/-- An enrollment whose writes may fail is one whose writes get through, but for its code. -/
theorem estHandleEnroll_afterWrites (r : EnrollRequest) (written : Bool) :
    Agree ctx written (estHandleEnroll C A ctx conn { r with writes := written } enrollReq)
      (estHandleEnroll C A ctx conn { r with writes := true } enrollReq) := by
  cases enrollReq with
  | simpleEnroll => exact agree_simple r written ctx.estEnrollPkcs10Cb
  | reenroll => exact agree_simple r written ctx.estReenrollPkcs10Cb
  | serverKeygen =>
    simp only [estHandleEnroll, estHandleServerKeygen]
    split
    · apply agree_admitted
      intro auth csr
      unfold generateAndEnroll
      split
      · split
        · exact agree_refuse (by decide) _ _ _
        · rename_i der hder
          cases estBase64Encode der (der.length * 2) true with
          | none => rfl
          | some b64der =>
            simp only [Option.bind_eq_bind, Option.bind_some]
            cases hrekey : rekey C ctx csr _ with
            | error rc => exact agree_refuse (rekey_error hrekey) _ _ _
            | ok csr =>
              apply agree_checked
              simp only [Agree, Option.map_some, askCaForKey, Option.some.injEq]
              exact caResult_afterWrites r _ written
      · exact agree_refuse (by decide) _ _ _
    · exact agree_refuse (by decide) _ _ _

/-- What a handler returns after its writes is what the enrollment comes to whose writes
fare as these did. -/
theorem sendReply_enroll {S : HttpServer} {r : Request} {ssl : Ssl} {contentType : Bytes}
    {pathSeg : Option Bytes} {out : Outcome} {wire last : Wire} {rc : EstError}
    (hout : enrollOutcome C A S r ssl contentType pathSeg enrollReq = some out)
    (h : (sendReply S r (enrollReply enrollReq out) wire).value = some (rc, last)) :
    ∃ written, (estHandleEnroll C A S.ctx r.conn
      { ssl := ssl, peerCert := ssl.peerCert, contentType := contentType, body := r.body
        pathSeg := pathSeg, writes := written } enrollReq).map Outcome.rc = some rc := by
  have hcode : ∀ written, (estHandleEnroll C A S.ctx r.conn
      { ssl := ssl, peerCert := ssl.peerCert, contentType := contentType, body := r.body
        pathSeg := pathSeg, writes := written } enrollReq).map Outcome.rc =
        some (afterWrites S.ctx written out.rc) := by
    intro written
    have hagree := @estHandleEnroll_afterWrites C A S.ctx r.conn enrollReq
      { ssl := ssl, peerCert := ssl.peerCert, contentType := contentType, body := r.body
        pathSeg := pathSeg, writes := true } written
    unfold Agree at hagree
    unfold enrollOutcome at hout
    rwa [hout] at hagree
  simp only [hcode, Option.some.injEq]
  by_cases hnone : out.rc = .none
  · have hcontent : ∃ parts, enrollReply enrollReq out = .content parts := by
      unfold enrollReply
      rw [if_pos hnone]
      cases enrollReq <;> exact ⟨_, rfl⟩
    obtain ⟨parts, hparts⟩ := hcontent
    rw [hparts] at h
    simp only [sendReply, bind_pure_eq, Option.map_eq_some_iff, Prod.mk.injEq] at h
    obtain ⟨⟨written, _⟩, -, hrc, -⟩ := h
    refine ⟨written, ?_⟩
    rw [← hrc, hnone]
    cases written <;> simp [afterWrites, S.http]
  · refine ⟨true, ?_⟩
    rw [afterWrites_of_ne hnone]
    by_cases hpending : out.rc = .authPending
    · unfold enrollReply at h
      rw [if_neg hnone, if_pos hpending] at h
      simp only [sendReply, bind_pure_eq, Option.map_eq_some_iff, Prod.mk.injEq] at h
      obtain ⟨_, -, hrc, -⟩ := h
      exact hpending.trans hrc
    · unfold enrollReply at h
      rw [if_neg hnone, if_neg hpending] at h
      cases h
      rfl

end Agreement

end LibEst.Server.HttpRequest
