import LibEst.Wire.EnrollCall

/-! An enrollment with a server that asks for credentials. The first request is answered
with a challenge, the second has the credentials of the client in it, and these are what
the application of the server is asked about. -/
namespace LibEst.Wire.Handshake

open LibEst.Basic LibEst.OpenSsl LibEst.Base64 LibEst.Lib.ByteString LibEst.Lib.Trace LibEst.Asn1
open LibEst.SafeStr
open LibEst.Server.AuthDigest LibEst.Server.AuthHeader LibEst.Server.Context
open LibEst.Server.Enroll LibEst.Server.EnrollAuth LibEst.Server.Framing
open LibEst.Server.Routing
open LibEst.Server.HttpRequest
open LibEst.Client.Context LibEst.Client.AuthHeader LibEst.Client.AuthRoundTrip
open LibEst.Client.DigestRoundTrip LibEst.Client.Enroll LibEst.Client.Http
open LibEst.Client.Request hiding getHeader
open LibEst.Client.RequestBuffer
open LibEst.Wire.Challenges LibEst.Wire.Replies LibEst.Wire.Dispatch LibEst.Wire.Requests
open LibEst.Wire.EnrollCall

section Sending

variable {brski : Bool} {env : ClientEnv} {x : Exchange} {ctx : ClientCtx} {op : EstOperation}

theorem buildRequest_whole {hdr body : Bytes} (hbody : body.length ≤ estHttpReqDataMax)
    (hfits : hdr.length + 2 + body.length + 2 < estHttpReqTotalLen) :
    buildRequest hdr body = some (hdr ++ crlf ++ body ++ crlf) := by
  have hcrlf : crlf.length = 2 := rfl
  have hfirst : addLineEnd hdr = some (hdr ++ crlf) := if_pos (by omega)
  have hlast : addLineEnd (hdr ++ crlf ++ body) = some (hdr ++ crlf ++ body ++ crlf) := by
    apply if_pos
    rw [List.length_append, List.length_append, hcrlf]
    omega
  rw [buildRequest, hfirst]
  simp only [Option.bind_eq_bind, Option.bind_some]
  rw [if_neg (Nat.not_lt.mpr hbody), hlast]

theorem requestText_length {call : EnrollCall} : (requestText env x ctx call).length =
    (wholeHeader env { authEnv env x with stack := [] } ctx call.op call.body.length).length + 2 +
      call.body.length + 2 := by
  have hcrlf : crlf.length = 2 := rfl
  rw [requestText, List.length_append, List.length_append, List.length_append, hcrlf]

/-- The header of a call is built as a whole. -/
theorem sendable_header {call : EnrollCall} (h : Sendable brski env x ctx call) :
    enrollHeader env x ctx call.op call.body.length =
      some (wholeHeader env { authEnv env x with stack := [] } ctx call.op call.body.length) := by
  have hrandom : ¬ (ctx.authMode = .digest ∧ x.random = none) := fun hr => h.proceeds (.random hr)
  have hwhole := (@wholeHeader_spill env x ctx call.op call.body.length hrandom).2 h.own
  have hfits := h.fits
  rw [requestText_length] at hfits
  rw [enrollHeader_eq h.enrolls call.body.length hrandom, hwhole, snprintf,
    List.take_of_length_le (by omega)]
  split
  · rename_i hre
    rw [limitHeader, if_neg]
    intro hlong
    exact h.proceeds (.reenroll ⟨hre, by rwa [hwhole]⟩)
  · rfl

theorem sendable_built {call : EnrollCall} (h : Sendable brski env x ctx call) :
    ∃ hdr, enrollHeader env x ctx call.op call.body.length = some hdr ∧ hdr ≠ [] ∧
      buildRequest hdr call.body = some (requestText env x ctx call) := by
  have hpos := @wholeHeader_ne env ctx { authEnv env x with stack := [] } call.op call.body.length
  have hfits := h.fits
  rw [requestText_length] at hfits
  exact ⟨_, sendable_header h, List.ne_nil_of_length_pos hpos, buildRequest_whole h.short hfits⟩

/-- The call that a certificate request comes to. -/
def callOf (env : ClientEnv) (csr : X509Req) (op : EstOperation) : EnrollCall where
  op := op
  body := pkcs10Text env csr
  keyBuffers := true
  memory := true

/-- The record of a request as it is written. -/
def sentOf (env : ClientEnv) (x : Exchange) (ctx : ClientCtx) (csr : X509Req)
    (privKey : Option EvpPkey) (op : EstOperation) : Sent where
  ctx := { ctx with lastHttpStatus := 0 }
  op := op
  auth := sentLine env x ctx (callOf env csr op)
  csr := some csr
  privKey := privKey
  request := requestText env x ctx (callOf env csr op)
  exchange := x

/-- What an enrollment makes of an answer. -/
def takeUp (env : ClientEnv) (op : EstOperation) (got : ClientCtx × Except EstError Buffers) :
    ClientCtx × Enrolled :=
  match got.2.bind (enrollBuffers op) with
  | .error rv => (got.1, failed rv)
  | .ok (cert, key) => storeEnrolled env got.1 cert key

/-- A request that is built is sent, and its answer is read. -/
theorem exchange_built {auth : AuthLine} {csr : Option X509Req} {privKey : Option EvpPkey}
    {hdr body request : Bytes} (hhdr : hdr ≠ []) (hrequest : buildRequest hdr body = some request)
    (hwrote : x.wrote = true) :
    exchange x ctx op auth csr privKey hdr body =
      ⟨[.sent ⟨{ ctx with lastHttpStatus := 0 }, op, auth, csr, privKey, request, x⟩],
        estIoGetResponseInternal { ctx with lastHttpStatus := 0 } op x.reads⟩ := by
  unfold exchange
  rw [if_neg hhdr, hrequest]
  simp only [ofOption, mk_some_bind, emit_bind, if_pos hwrote]
  cases estIoGetResponseInternal { ctx with lastHttpStatus := 0 } op x.reads <;> rfl

/-- A call sends one request, and gets what is in the answer. -/
theorem enrollReq_answered {csr : X509Req} {privKey : Option EvpPkey}
    (h : Sendable brski env x ctx (callOf env csr op)) (hwrote : x.wrote = true)
    {got : ClientCtx × Except EstError Buffers}
    (hgot : estIoGetResponseInternal { ctx with lastHttpStatus := 0 } op x.reads = some got) :
    estClientEnrollReq env x ctx csr privKey op =
      ⟨[.sent (sentOf env x ctx csr privKey op)], some (takeUp env op got)⟩ := by
  obtain ⟨hdr, hheader, hne, hbuilt⟩ := sendable_built h
  have hline : authLine (authEnv env x) ctx (resourceUri (enrollResource op)) =
      sentLine env x ctx (callOf env csr op) :=
    (@authLine_spill ctx (authEnv env x) (resourceUri (enrollResource op))).2 h.own
  have hanswered : exchange x ctx op (sentLine env x ctx (callOf env csr op)) (some csr) privKey hdr
      (pkcs10Text env csr) = ⟨[.sent (sentOf env x ctx csr privKey op)], some got⟩ :=
    (exchange_built hne hbuilt hwrote).trans (congrArg (Traced.mk _) hgot)
  have hsame : enrollHeader env x ctx op (pkcs10Text env csr).length = some hdr := hheader
  unfold estClientEnrollReq estClientSendEnrollRequestInternal takeUp
  dsimp only
  rw [hline, hsame]
  simp only [ofOption, mk_some_bind, List.nil_append, hanswered, pure_events, pure_value,
    List.append_nil]
  cases got.2.bind (enrollBuffers op) <;> rfl

end Sending

section Links

variable {C : Crypto} {A : Asn1Ops} {U : UriParser} {brski : Bool} {S : HttpServer}
  {visits : Nat → Visit} {env : ClientEnv} {x : Exchange} {ctx : ClientCtx} {call : EnrollCall}

/-- The request of an exchange gets to a server, which writes its answer, and the answer gets
back; both in pieces. -/
structure Linked (C : Crypto) (A : Asn1Ops) (U : UriParser) (brski : Bool) (S : HttpServer)
    (visits : Nat → Visit) (x : Exchange) (request : Bytes) : Prop where
  wrote : x.wrote = true
  answered : ∃ cuts run rc, ∃ chunks : List Bytes, Supplies cuts request.length ∧
    answers C A U brski S visits request cuts = [run] ∧ run.value = some rc ∧ rc ≠ .httpWrite ∧
    Through run.events ∧ (∀ chunk ∈ chunks, chunk ≠ []) ∧
    chunks.flatten = writtenBytes run.events ∧ x.reads = chunks.map some

theorem linked_read (hmode : S.ctx.estMode = .server) (hU : U.Lawful)
    (h : Sendable brski env x ctx call)
    (hlink : Linked C A U brski S visits x (requestText env x ctx call)) :
    ∃ view, OperationDecides C A S ((visits 0).request h.frame) (visits 0).ssl ctx.uriPathSegment
        call.op view ∧
      (Legible view → ∀ reader : ClientCtx,
        estIoGetResponseInternal reader call.op x.reads = some (view.received reader)) := by
  obtain ⟨cuts, run, rc, chunks, hcuts, hrun, hvalue, hrc, hthrough, hne, hchunks, hreads⟩ :=
    hlink.answered
  rw [h.answers_eq visits hcuts] at hrun
  cases hrun
  obtain ⟨view, hview, hread⟩ := h.answer_read hmode hU hvalue hrc hthrough
  refine ⟨view, hview, ?_⟩
  intro hlegible reader
  rw [hreads]
  exact hread hlegible reader chunks hne hchunks

/-- A connection on which the request and its answer arrive at once. -/
theorem linked_whole (h : Sendable brski env x ctx call) (hwrote : x.wrote = true) {text : Bytes}
    (hreads : x.reads = [some text]) {rc : EstError}
    (hvalue : (estHttpRequest C A U brski S ((visits 0).request h.frame) (visits 0).wire).value = some rc)
    (hrc : rc ≠ .httpWrite)
    (hthrough : Through (estHttpRequest C A U brski S ((visits 0).request h.frame) (visits 0).wire).events)
    (htext : writtenBytes (estHttpRequest C A U brski S ((visits 0).request h.frame)
      (visits 0).wire).events = text) (hne : text ≠ []) :
    Linked C A U brski S visits x (requestText env x ctx call) := by
  refine ⟨hwrote, _, _, rc, [text], supplies_replicate _, h.answers_eq visits (supplies_replicate _),
    hvalue, hrc, hthrough, ?_, ?_, hreads⟩
  · intro chunk hchunk
    rw [List.mem_singleton.mp hchunk]
    exact hne
  · rw [htext, List.flatten_singleton]

end Links

section Guards

variable {C : Crypto} {A : Asn1Ops} {S : HttpServer} {cb : AuthCall → Bool} {ssl : Ssl}
  {r : Request} {pathSeg : Option Bytes} {op : EstOperation} {view : View}

/-- The certificate that the HTTP stage is given. -/
def peerOf (ssl : Ssl) : Option X509 := (checkForTlsCertAuth ssl).2.1

def reqType : EstOperation → EnrollReqType
  | .simpleReenroll => .reenroll
  | .serverKeygen => .serverKeygen
  | _ => .simpleEnroll

/-- There are callbacks for the operation. -/
def Staffed (S : HttpServer) : EstOperation → Prop
  | .simpleReenroll => S.ctx.estReenrollPkcs10Cb.isSome
  | .serverKeygen => S.ctx.estServerKeygenPkcs10Cb.isSome ∧ S.ctx.keygenCb.isSome
  | _ => S.ctx.estEnrollPkcs10Cb.isSome

/-- The server asks every client for credentials that TLS has let through. -/
structure Guarded (S : HttpServer) (cb : AuthCall → Bool) (op : EstOperation) (ssl : Ssl) : Prop where
  required : S.ctx.requireHttpAuth = .required
  callback : S.ctx.estHttpAuthCb = some cb
  plain : S.ctx.enhancedCertAuthEnabled = false
  staffed : Staffed S op
  tls : (checkForTlsCertAuth ssl).1 = true

theorem guarded_auth (h : Guarded S cb op ssl) (conn : MgConnection) (pathSeg : Option Bytes)
    (req : EnrollReqType) (body : Bytes) :
    ∃ rv, estEnrollAuth C S.ctx conn ssl pathSeg req body =
      some (httpStage cb conn (peerOf ssl) pathSeg req rv (headerCredentials C S.ctx conn)) := by
  have htls := h.tls
  have hcredentials (peer : Option X509) (rv : AuthState) :
      credentials C S.ctx conn ssl peer rv body = headerCredentials C S.ctx conn := by
    cases peer with
    | none => rfl
    | some cert => exact if_neg fun hand => absurd hand.1 (by rw [h.plain]; exact Bool.false_ne_true)
  unfold estEnrollAuth peerOf
  rcases hcheck : checkForTlsCertAuth ssl with ⟨go, peer, rv⟩
  rw [hcheck] at htls
  cases htls
  simp only [S.http, h.callback, h.required, or_true, if_true, hcredentials, Option.some.injEq]
  exact ⟨_, rfl⟩

theorem admitted_refused {conn : MgConnection} {req : EnrollRequest} {type : EnrollReqType}
    {next : AuthResult → X509Req → Option LibEst.Server.Enroll.Outcome} {auth : AuthResult}
    {rc : EstError} (hright : wrongContentType S.ctx req.contentType = false)
    (hauth : estEnrollAuth C S.ctx conn req.ssl req.pathSeg type req.body = some auth)
    (hrc : authError auth.state = some rc) :
    admitted C S.ctx conn req type next = some (refuse rc (some auth) auth.conn) := by
  unfold admitted
  rw [hright, hauth]
  simp only [Bool.false_eq_true, if_false, Option.bind_eq_bind, Option.bind_some, hrc]

/-- An enrollment that is not let through is refused with what authorization came to. -/
theorem enrollOutcome_refused {auth : AuthResult} {rc : EstError} (h : Staffed S op)
    (hop : LibEst.Client.RequestBuffer.Enrolls op)
    (hauth : estEnrollAuth C S.ctx r.conn ssl pathSeg (reqType op) r.body = some auth)
    (hrc : authError auth.state = some rc) :
    enrollOutcome C A S r ssl (ascii "application/pkcs10") pathSeg (reqType op) =
      some (refuse rc (some auth) auth.conn) := by
  have hright : wrongContentType S.ctx (ascii "application/pkcs10") = false := by
    rw [wrongContentType, ascii_ofList]
    simp
  rcases hop with rfl | rfl | rfl
  · obtain ⟨issue, hissue⟩ := Option.isSome_iff_exists.mp h
    simp only [enrollOutcome, reqType, estHandleEnroll, estHandleSimpleEnroll, hissue]
    exact admitted_refused hright hauth hrc
  · obtain ⟨issue, hissue⟩ := Option.isSome_iff_exists.mp h
    simp only [enrollOutcome, reqType, estHandleEnroll, estHandleSimpleEnroll, hissue]
    exact admitted_refused hright hauth hrc
  · obtain ⟨issue, hissue⟩ := Option.isSome_iff_exists.mp h.1
    obtain ⟨generated, hgenerated⟩ := Option.isSome_iff_exists.mp h.2
    simp only [enrollOutcome, reqType, estHandleEnroll, estHandleServerKeygen, hissue, hgenerated]
    exact admitted_refused hright hauth hrc

theorem handlerReply_enroll (hop : LibEst.Client.RequestBuffer.Enrolls op)
    (htype : r.contentType = some (ascii "application/pkcs10")) :
    handlerReply C A S r ssl pathSeg op =
      (enrollOutcome C A S r ssl (ascii "application/pkcs10") pathSeg (reqType op)).map
        (enrollReply (reqType op)) := by
  rcases hop with rfl | rfl | rfl <;> simp only [handlerReply, reqType, htype, Option.getD_some]

theorem wrongRequest_enroll (hop : LibEst.Client.RequestBuffer.Enrolls op)
    (hmethod : r.method = ascii "POST") (htype : r.contentType = some (ascii "application/pkcs10")) :
    wrongRequest op r = none := by
  have hpost : ascii "POST" <+: r.method := hmethod ▸ List.prefix_refl _
  have hsome : r.contentType ≠ none := by
    rw [htype]
    exact Option.some_ne_none _
  rcases hop with rfl | rfl | rfl <;> exact (if_neg (not_not.mpr hpost)).trans (if_neg hsome)

/-- A client that is told to wait for credentials gets a challenge, and one with wrong
credentials an error. -/
theorem refused_view {auth : AuthResult} (hop : LibEst.Client.RequestBuffer.Enrolls op)
    (hmethod : r.method = ascii "POST") (htype : r.contentType = some (ascii "application/pkcs10"))
    (hstaffed : Staffed S op)
    (hauth : estEnrollAuth C S.ctx r.conn ssl pathSeg (reqType op) r.body = some auth)
    (hview : OperationDecides C A S r ssl pathSeg op view) :
    (auth.state = .httpAuthPending → view = .challenged S.ctx.authMode S.realm r.now) ∧
      (auth.state = .unauthorized → view = .refused r.keepAlive .authFail) := by
  have hwrong := wrongRequest_enroll hop hmethod htype
  have hreply {rc : EstError} (hrc : authError auth.state = some rc) :
      handlerReply C A S r ssl pathSeg op =
        some (enrollReply (reqType op) (refuse rc (some auth) auth.conn)) := by
    rw [handlerReply_enroll hop htype, enrollOutcome_refused hstaffed hop hauth hrc]
    rfl
  constructor
  · intro hstate
    have hchallenge := hreply (show authError auth.state = some .authPending by rw [hstate]; rfl)
    cases hview with
    | wrong h =>
      rw [hwrong] at h
      cases h
    | refused _ h =>
      rw [hchallenge] at h
      cases h
    | answered _ h hshows =>
      rw [hchallenge] at h
      cases h
      cases hshows
      rfl
  · intro hstate
    have hfail := hreply (show authError auth.state = some .authFail by rw [hstate]; rfl)
    cases hview with
    | wrong h =>
      rw [hwrong] at h
      cases h
    | refused _ h =>
      rw [hfail] at h
      cases h
      rcases hop with rfl | rfl | rfl <;> rfl
    | answered _ h hshows =>
      rw [hfail] at h
      cases h
      cases hshows

end Guards

section Credentials

variable {bioRead : BioRead} {auth : AuthEnv} {ctx : ClientCtx} {uri : Bytes}

/-- The credentials that a client has for the mode fit the buffers of both sides. -/
def CredentialsFit (auth : AuthEnv) (ctx : ClientCtx) (uri : Bytes) : Prop :=
  match ctx.authMode with
  | .basic => FitsBasic (basicCredentials ctx).1 (basicCredentials ctx).2
  | .token => ∃ token, (appCredentials ctx .token).authToken = some token ∧ FitsBearer token
  | .digest =>
      Accepted ctx ∧ Challenged ctx ∧ (∃ random, auth.random = some random ∧ random.length = 8) ∧
        FitsDigest (clientUser auth ctx) ctx.realm ctx.sNonce uri
  | .none | .fail => False

/-- What the application of the server is told are the credentials of the client; a digest
is the one that the server comes to from the password itself. -/
def Presents (auth : AuthEnv) (ctx : ClientCtx) (ah : AuthHdr) : Prop :=
  ah.mode = ctx.authMode ∧
    match ctx.authMode with
    | .basic => ah.user = some (basicCredentials ctx).1 ∧ ah.pwd = some (basicCredentials ctx).2
    | .token => ah.authToken = (appCredentials ctx .token).authToken
    | .digest =>
        ah.user = some (clientUser auth ctx) ∧ ah.response.isSome ∧
          estServerGenerateAuthDigest auth.md5 ah
            (ha1Of auth.md5 (clientUser auth ctx) ctx.realm (clientPwd auth ctx)) = ah.response
    | .none | .fail => False

/-- A header that the server reads as those credentials. -/
def Read (bioRead : BioRead) (auth : AuthEnv) (ctx : ClientCtx) (value : Bytes) : Prop :=
  ∀ stack userId, ∃ ah user,
    mgParseAuthHeader bioRead ctx.authMode { authorization := some value, stack := stack } userId
      estCreateAh = (.good, ah, user) ∧ Presents auth ctx ah

theorem hasPrefixCase_append {front text : Bytes} {literal : String}
    (hlength : literal.length = front.length)
    (hsame : front.map tolower = (ascii literal).map tolower) :
    hasPrefixCase (front ++ text) literal = true := by
  rw [hasPrefixCase, hlength, List.take_left]
  exact decide_eq_true hsame

theorem hasPrefixCase_other {front text : Bytes} {literal : String} {n : Nat}
    (hlength : literal.length = n + 1)
    (hother : (front.map tolower).head? ≠ ((ascii literal).map tolower).head?) (hne : front ≠ []) :
    hasPrefixCase (front ++ text) literal = false := by
  obtain ⟨c, front, rfl⟩ := List.exists_cons_of_ne_nil hne
  rw [hasPrefixCase, hlength]
  apply decide_eq_false
  intro hsame
  have hhead := congrArg List.head? hsame
  exact hother hhead

theorem basicHeader_scheme (text : Bytes) (stack : Bytes) (ah : AuthHdr) :
    parseScheme bioRead .basic stack (ascii "Basic" ++ [32] ++ text) ah =
      some (mgParseAuthHdrBasic bioRead (ascii "Basic" ++ [32] ++ text) ah) := by
  have hfront : ascii "Basic" ++ [32] = [66, 97, 115, 105, 99, 32] := by
    rw [ascii_ofList]
    rfl
  have hdigest : hasPrefixCase ([66, 97, 115, 105, 99, 32] ++ text) "Digest " = false := by
    apply hasPrefixCase_other rfl
    · rw [ascii_ofList]
      decide
    · exact List.cons_ne_nil _ _
  have hbasic : hasPrefixCase ([66, 97, 115, 105, 99, 32] ++ text) "Basic " = true := by
    apply hasPrefixCase_append rfl
    rw [ascii_ofList]
    rfl
  rw [hfront, parseScheme, hdigest, hbasic]
  rfl

theorem bearerHeader_scheme (text : Bytes) (stack : Bytes) (ah : AuthHdr) :
    parseScheme bioRead .token stack (ascii "Bearer" ++ [32] ++ text) ah =
      some (mgParseAuthHdrToken bioRead (ascii "Bearer" ++ [32] ++ text) ah) := by
  have hfront : ascii "Bearer" ++ [32] = [66, 101, 97, 114, 101, 114, 32] := by
    rw [ascii_ofList]
    rfl
  have hdigest : hasPrefixCase ([66, 101, 97, 114, 101, 114, 32] ++ text) "Digest " = false := by
    apply hasPrefixCase_other rfl
    · rw [ascii_ofList]
      decide
    · exact List.cons_ne_nil _ _
  have hbasic : hasPrefixCase ([66, 101, 97, 114, 101, 114, 32] ++ text) "Basic " = false := by
    rw [hasPrefixCase, ascii_ofList]
    apply decide_eq_false
    intro hsame
    have hsecond : some (tolower 101) = some (tolower 97) := congrArg (fun t => t[1]?) hsame
    exact absurd hsecond (by decide)
  have hbearer : hasPrefixCase ([66, 101, 97, 114, 101, 114, 32] ++ text) "Bearer " = true := by
    apply hasPrefixCase_append rfl
    rw [ascii_ofList]
    rfl
  rw [hfront, parseScheme, hdigest, hbasic, hbearer]
  rfl

theorem basic_read (hread : ReadsBack bioRead) (hmode : ctx.authMode = .basic)
    (hfits : FitsBasic (basicCredentials ctx).1 (basicCredentials ctx).2) :
    ∃ value, authLine auth ctx uri = .value value ∧ Read bioRead auth ctx value := by
  rcases hcredentials : basicCredentials ctx with ⟨user, pwd⟩
  rw [hcredentials] at hfits
  obtain ⟨value, hvalue, -, hparse⟩ := basic_roundtrip hread hcredentials hfits
  have hline : authLine auth ctx uri = .value value := by
    simp only [authLine, hmode, hvalue, Option.map_some, Option.getD_some]
  refine ⟨value, hline, ?_⟩
  intro stack userId
  obtain rfl := Option.some.inj ((basicValue_text hcredentials hfits).symm.trans hvalue)
  have hscheme := @basicHeader_scheme bioRead (base64Text false (user ++ colon :: pwd)) stack estCreateAh
  rw [hparse] at hscheme
  refine ⟨{ estCreateAh with user := some user, pwd := some pwd, mode := .basic }, user.take mgUidMax,
    ?_, ?_⟩
  · simp only [mgParseAuthHeader, hmode, hscheme]
    rfl
  · rw [Presents, hmode, hcredentials]
    exact ⟨rfl, rfl, rfl⟩

theorem bearer_read (hread : ReadsBack bioRead) (hmode : ctx.authMode = .token) {token : Bytes}
    (htoken : (appCredentials ctx .token).authToken = some token) (hfits : FitsBearer token) :
    ∃ value, authLine auth ctx uri = .value value ∧ Read bioRead auth ctx value := by
  obtain ⟨value, hvalue, -, hparse⟩ := bearer_roundtrip hread htoken hfits
  have hline : authLine auth ctx uri = .value value := by
    simp only [authLine, hmode, hvalue, Option.map_some, Option.getD_some]
  refine ⟨value, hline, ?_⟩
  intro stack userId
  obtain rfl := Option.some.inj ((bearerValue_text htoken hfits).symm.trans hvalue)
  have hscheme := @bearerHeader_scheme bioRead (base64Text false token) stack estCreateAh
  rw [hparse] at hscheme
  refine ⟨{ estCreateAh with authToken := some token, mode := .token }, userId, ?_, ?_⟩
  · simp only [mgParseAuthHeader, hmode, hscheme]
    rfl
  · rw [Presents, hmode, htoken]
    exact ⟨rfl, rfl⟩

theorem digest_read (hmode : ctx.authMode = .digest) (haccepted : Accepted ctx)
    (hchallenged : Challenged ctx) {random : Bytes} (hsource : auth.random = some random)
    (hrandom : random.length = 8) (huri : uri ∈ operationUris)
    (hfits : FitsDigest (clientUser auth ctx) ctx.realm ctx.sNonce uri) :
    ∃ value, authLine auth ctx uri = .value value ∧ Read bioRead auth ctx value := by
  obtain ⟨time, htime, hnonceText⟩ := hchallenged.nonce
  have hroom := hfits.room
  have huser := clientUser_field haccepted hfits.quotable (by omega)
  have hnonce : Field ctx.sNonce maxNonce := by
    rw [hnonceText]
    exact (decimal_field htime).1
  have huriField := operationUris_field huri
  have hcnonce : Field (estHexToStr random) maxNonce := estHexToStr_field (by rw [hrandom]; decide)
  have hresponseLen : (clientResponse auth ctx random uri).length = 32 := by
    rw [clientResponse, estClientGenerateAuthDigest, estHexToStr_length, auth.md5.length]
  have hresponse : Field (clientResponse auth ctx random uri) maxResponse :=
    estHexToStr_field (by rw [auth.md5.length]; decide)
  refine ⟨_, by rw [authLine, hmode, digestValue_eq hsource uri]; rfl, ?_⟩
  intro stack userId
  -- the copy of the server holds the whole text
  have hcopy : digestCopy stack (ascii "Digest " ++ clientText auth ctx random uri) =
      clientText auth ctx random uri := by
    have hscheme : (ascii "Digest ").length = 7 := by
      rw [ascii_ofList]
      rfl
    have hdrop : (ascii "Digest " ++ clientText auth ctx random uri).drop 7 =
        clientText auth ctx random uri := by
      rw [← hscheme, List.drop_left]
    have hlength := digestText_length (clientUser auth ctx) ctx.realm ctx.sNonce uri
      (estHexToStr random) (clientResponse auth ctx random uri)
    rw [estHexToStr_length, hrandom, hresponseLen] at hlength
    rw [digestCopy, hdrop]
    apply if_pos
    unfold maxAuthHdrLen clientText
    omega
  have hparsed : parseScheme bioRead .digest stack (ascii "Digest " ++ clientText auth ctx random uri)
      estCreateAh = some (clientFields auth ctx random uri) := by
    rw [parseScheme, if_pos (hasPrefixCase_digest _), if_neg (by decide), mgParseAuthHdrDigest,
      hcopy, clientText, digestLoop_text huser hfits.closed hnonce huriField hcnonce hresponse]
    rfl
  refine ⟨clientFields auth ctx random uri, (clientUser auth ctx).take mgUidMax, ?_, ?_⟩
  · simp only [mgParseAuthHeader, hmode, hparsed]
    rfl
  · rw [Presents, hmode]
    exact ⟨rfl, rfl, rfl, estServerGenerateAuthDigest_client haccepted hchallenged huser.len
      hnonce.len hrandom huriField.len rfl rfl rfl rfl⟩

/-- Credentials that fit are read as they are. -/
theorem credentials_read (hread : ReadsBack bioRead) (huri : uri ∈ operationUris)
    (hfits : CredentialsFit auth ctx uri) :
    ∃ value, authLine auth ctx uri = .value value ∧ Read bioRead auth ctx value := by
  unfold CredentialsFit at hfits
  cases hmode : ctx.authMode <;> rw [hmode] at hfits
  case none | fail => exact hfits.elim
  case basic => exact basic_read hread hmode hfits
  case token =>
    obtain ⟨token, htoken, hbearer⟩ := hfits
    exact bearer_read hread hmode htoken hbearer
  case digest =>
    obtain ⟨haccepted, hchallenged, ⟨random, hsource, hrandom⟩, hdigest⟩ := hfits
    exact digest_read hmode haccepted hchallenged hsource hrandom huri hdigest

theorem resourceUri_mem {op : EstOperation} (h : LibEst.Client.RequestBuffer.Enrolls op) :
    resourceUri (enrollResource op) ∈ operationUris := by
  have henroll : resourceUri (ascii "simpleenroll") = ascii "/.well-known/est/simpleenroll" := by
    rw [resourceUri, estPathPrefix, ascii_ofList, ascii_ofList, ascii_ofList, ascii_ofList]
    rfl
  have hreenroll : resourceUri (ascii "simplereenroll") = ascii "/.well-known/est/simplereenroll" := by
    rw [resourceUri, estPathPrefix, ascii_ofList, ascii_ofList, ascii_ofList, ascii_ofList]
    rfl
  have hkeygen : resourceUri (ascii "serverkeygen") = ascii "/.well-known/est/serverkeygen" := by
    rw [resourceUri, estPathPrefix, ascii_ofList, ascii_ofList, ascii_ofList, ascii_ofList]
    rfl
  rw [operationUris, ← henroll, ← hreenroll, ← hkeygen]
  rcases h with rfl | rfl | rfl
  · exact List.mem_cons_of_mem _ List.mem_cons_self
  · exact List.mem_cons_of_mem _ (List.mem_cons_of_mem _ List.mem_cons_self)
  · exact List.mem_cons_of_mem _ (List.mem_cons_of_mem _ (List.mem_cons_of_mem _ List.mem_cons_self))

end Credentials

section Attempts

variable {C : Crypto} {A : Asn1Ops} {U : UriParser} {brski : Bool} {S : HttpServer}
  {cb : AuthCall → Bool} {visits : Nat → Visit} {env : ClientEnv} {x : Exchange} {ctx : ClientCtx}
  {csr : X509Req} {privKey : Option EvpPkey} {op : EstOperation}

/-- A call over a connection to the server. -/
structure Exchanged (C : Crypto) (A : Asn1Ops) (U : UriParser) (brski : Bool) (S : HttpServer)
    (visits : Nat → Visit) (env : ClientEnv) (x : Exchange) (ctx : ClientCtx) (csr : X509Req)
    (op : EstOperation) : Prop where
  sendable : Sendable brski env x ctx (callOf env csr op)
  linked : Linked C A U brski S visits x (requestText env x ctx (callOf env csr op))

def clientAuth (env : ClientEnv) (x : Exchange) : AuthEnv := { authEnv env x with stack := [] }

/-- The client behind the challenge of a server. -/
def invited (S : HttpServer) (now : Nat) (ctx : ClientCtx) : ClientCtx :=
  challengedBy { ctx with lastHttpStatus := 401 } S.ctx.authMode S.realm now

theorem sentLine_absent {call : EnrollCall} (h : hasAuthenticated ctx.authMode = false) :
    sentLine env x ctx call = .absent := by
  unfold sentLine authLine
  cases hmode : ctx.authMode <;> rw [hmode] at h <;> first | rfl | exact absurd h (by decide)

/-- A request without credentials is answered with a challenge, which the client takes up. -/
theorem invited_by (hmode : S.ctx.estMode = .server) (hU : U.Lawful)
    (hguard : Guarded S cb op (visits 0).ssl)
    (hlegible : Legible (.challenged S.ctx.authMode S.realm (visits 0).now))
    (hfresh : hasAuthenticated ctx.authMode = false)
    (h : Exchanged C A U brski S visits env x ctx csr op) :
    estClientEnrollReq env x ctx csr privKey op =
      ⟨[.sent (sentOf env x ctx csr privKey op)],
        some (invited S (visits 0).now ctx, failed .authFail)⟩ := by
  obtain ⟨view, hview, hread⟩ := linked_read hmode hU h.sendable h.linked
  have hcarried := h.sendable.carried (visits 0)
  obtain ⟨rv, hauth⟩ := @guarded_auth C S cb (visits 0).ssl op hguard
    ((visits 0).request h.sendable.frame).conn ctx.uriPathSegment (reqType op)
    ((visits 0).request h.sendable.frame).body
  have hmissing : (headerCredentials C S.ctx ((visits 0).request h.sendable.frame).conn).result =
      .missing := by
    have hnone := hcarried.credentials
    rw [sentLine_absent hfresh] at hnone
    rw [headerCredentials, mgParseAuthHeader, hnone]
    rfl
  have hview : view = .challenged S.ctx.authMode S.realm (visits 0).now := by
    apply (refused_view h.sendable.enrolls hcarried.method hcarried.contentType hguard.staffed hauth
      hview).1
    rw [httpStage]
    simp only [hmissing]
  subst hview
  rw [enrollReq_answered h.sendable h.linked.wrote (hread hlegible _), View.received]
  simp only [hfresh, Bool.false_eq_true, if_false]
  rfl

/-- The one call of the application of the server. -/
def asked (ssl : Ssl) (pathSeg : Option Bytes) (ah : AuthHdr) : AuthCall :=
  { ah := ah, peer := peerOf ssl, pathSeg := pathSeg }

/-- What a request with credentials comes to: the application is asked about them once, and
its answer decides. -/
structure Heard (C : Crypto) (A : Asn1Ops) (S : HttpServer) (cb : AuthCall → Bool) (visit : Visit)
    (env : ClientEnv) (x : Exchange) (ctx : ClientCtx) (csr : X509Req) (op : EstOperation)
    (r : Request) (ah : AuthHdr) (auth : AuthResult) (view : View) : Prop where
  carried : Carried env x ctx (callOf env csr op) visit r
  presents : Presents (clientAuth env x) ctx ah
  authorizes : estEnrollAuth C S.ctx r.conn visit.ssl ctx.uriPathSegment (reqType op) r.body = some auth
  calls : auth.calls = [asked visit.ssl ctx.uriPathSegment ah]
  state : auth.state = askApplication cb (asked visit.ssl ctx.uriPathSegment ah)
  decides : OperationDecides C A S r visit.ssl ctx.uriPathSegment op view
  refuses : cb (asked visit.ssl ctx.uriPathSegment ah) = false → view = .refused r.keepAlive .authFail

/-- A request with credentials is decided by the application of the server. -/
theorem heard_by (hmode : S.ctx.estMode = .server) (hU : U.Lawful) (hread : ReadsBack C.bioRead)
    (hguard : Guarded S cb op (visits 0).ssl) (hauthMode : ctx.authMode = S.ctx.authMode)
    (hfits : CredentialsFit (clientAuth env x) ctx (resourceUri (enrollResource op)))
    (h : Exchanged C A U brski S visits env x ctx csr op) :
    ∃ r ah auth view, Heard C A S cb (visits 0) env x ctx csr op r ah auth view ∧
      (Legible view → estClientEnrollReq env x ctx csr privKey op =
        ⟨[.sent (sentOf env x ctx csr privKey op)],
          some (takeUp env op (view.received { ctx with lastHttpStatus := 0 }))⟩) := by
  obtain ⟨view, hview, hanswer⟩ := linked_read hmode hU h.sendable h.linked
  have hcarried := h.sendable.carried (visits 0)
  have hop := h.sendable.enrolls
  obtain ⟨value, hvalue, hreads⟩ := credentials_read hread (resourceUri_mem hop) hfits
  obtain ⟨ah, user, hparsed, hpresents⟩ := hreads
    ((visits 0).request h.sendable.frame).conn.source.stack (visits 0).conn.userId
  obtain ⟨rv, hauth⟩ := @guarded_auth C S cb (visits 0).ssl op hguard
    ((visits 0).request h.sendable.frame).conn ctx.uriPathSegment (reqType op)
    ((visits 0).request h.sendable.frame).body
  have hcredentials : headerCredentials C S.ctx ((visits 0).request h.sendable.frame).conn =
      { result := .good, ah := ah, csr := none, userId := user } := by
    have hsource : ((visits 0).request h.sendable.frame).conn.source =
        { authorization := some value
          stack := ((visits 0).request h.sendable.frame).conn.source.stack } := by
      have hsent := hcarried.credentials
      have hline : sentLine env x ctx (callOf env csr op) = .value value := hvalue
      rw [hline, sentAuthorization] at hsent
      rw [← hsent]
    rw [headerCredentials, hsource, hcarried.user, ← hauthMode, hparsed]
  have hstage : httpStage cb ((visits 0).request h.sendable.frame).conn (peerOf (visits 0).ssl)
      ctx.uriPathSegment (reqType op) rv
      (headerCredentials C S.ctx ((visits 0).request h.sendable.frame).conn) =
      { state := askApplication cb (asked (visits 0).ssl ctx.uriPathSegment ah)
        hdrResult := .good
        calls := [asked (visits 0).ssl ctx.uriPathSegment ah]
        csr := none
        conn := { ((visits 0).request h.sendable.frame).conn with userId := user } } := by
    rw [hcredentials]
    rfl
  rw [hstage] at hauth
  refine ⟨_, ah, _, view, ⟨hcarried, hpresents, hauth, rfl, rfl, hview, ?_⟩, ?_⟩
  · intro hno
    apply (refused_view hop hcarried.method hcarried.contentType hguard.staffed hauth hview).2
    show askApplication cb _ = .unauthorized
    rw [askApplication, if_neg (by rw [hno]; exact Bool.false_ne_true)]
  · intro hlegible
    exact enrollReq_answered h.sendable h.linked.wrote (hanswer hlegible _)

/-- The end of a second attempt. -/
def concluded (env : ClientEnv) (op : EstOperation) (ctx : ClientCtx) (view : View) :
    ClientCtx × Enrolled × Bool :=
  let (ctx, enrolled) := takeUp env op (view.received { ctx with lastHttpStatus := 0 })
  (ctx, enrolled, true)

end Attempts

section Instances

open LibEst.Client.Reference LibEst.Client.ReferenceEnv LibEst.Server.Bracketing
open LibEst.Server.Reference LibEst.Server.RoutingExact

/-- A client whose requests for certificates are three bytes long. -/
def briefEnv : ClientEnv :=
  { clientEnv with crypto := { clientEnv.crypto with i2dX509Req := fun _ => [1, 2, 3] } }

/-- A server that takes every body for one request. -/
def briefCrypto : Crypto := { hostCrypto with d2iX509Req := fun _ => some clientReq }

/-- The first connection takes 90 bytes, the second 151 and 11. -/
def briefSessions (i j : Nat) : Visit :=
  { shortVisit j with wire := if i = 0 then [[90]] else [[151], [11]] }

/-- What the server answers with on each connection. -/
def briefView (i : Nat) : View :=
  if i = 0 then .challenged .basic (ascii "estrealm") 0
  else .content "application/pkcs7-mime; smime-type=certs-only" (ascii "certificate")

def briefNet (i : Nat) : Exchange where
  connect := .ok devSession
  wrote := true
  reads := [some (briefView i).text]
  random := none
  stack := []

def briefCtx (i : Nat) : ClientCtx := if i = 0 then hostCtx else invited certServer 0 hostCtx

theorem brief_sendable (i : Nat) (h : i < 2) :
    Sendable true briefEnv (briefNet i) (briefCtx i) (callOf briefEnv clientReq .simpleEnroll) := by
  have hmode : (briefCtx i).authMode ≠ .digest := by
    unfold briefCtx
    split <;> decide
  have hserver : ∀ c ∈ (briefCtx i).estServer, HeadByte c := by
    unfold briefCtx
    split <;> exact ascii_forall (by decide)
  have hkept : Kept true (briefCtx i).uriPathSegment := by
    unfold briefCtx
    split <;> trivial
  have hfits : (requestText briefEnv (briefNet i) (briefCtx i)
      (callOf briefEnv clientReq .simpleEnroll)).length < estHttpReqTotalLen := by
    rcases i with _ | _ | i
    · decide +kernel
    · decide +kernel
    · omega
  exact sendable_undigested hmode rfl rfl (by decide) hfits (ascii_forall (by decide)) hserver hkept

/-- The run of the server for the request of each connection. -/
def briefRun (i : Nat) (h : i < 2) : Traced HttpEvent EstError :=
  estHttpRequest briefCrypto hostAsn1 pathParser true certServer
    ((briefSessions i 0).request (brief_sendable i h).frame) (briefSessions i 0).wire

theorem briefRun_written (i : Nat) (h : i < 2) :
    (briefRun i h).value = some .none ∧ Through (briefRun i h).events ∧
      writtenBytes (briefRun i h).events = (briefView i).text ∧ (briefView i).text ≠ [] := by
  rcases i with _ | _ | i
  · decide +kernel +revert
  · decide +kernel +revert
  · omega

theorem brief_exchanged (i : Nat) (h : i < 2) :
    Exchanged briefCrypto hostAsn1 pathParser true certServer (briefSessions i) briefEnv (briefNet i)
      (briefCtx i) clientReq .simpleEnroll where
  sendable := brief_sendable i h
  linked := by
    obtain ⟨hvalue, hthrough, htext, hne⟩ := briefRun_written i h
    exact linked_whole (brief_sendable i h) rfl rfl hvalue (by decide) hthrough htext hne

theorem briefChallenge_legible : Legible (.challenged .basic (ascii "estrealm") 0) := by
  have hplain : Plain (ascii "estrealm") 0 :=
    ⟨⟨by decide, by decide⟩, ascii_forall (by decide), ascii_length_le (by decide), by decide⟩
  exact ⟨Or.inl rfl, hplain, by decide +kernel⟩

def briefAttempt : Attempt :=
  fun x _ ctx => estClientEnrollReq briefEnv x ctx clientReq none .simpleEnroll

end Instances

end LibEst.Wire.Handshake
