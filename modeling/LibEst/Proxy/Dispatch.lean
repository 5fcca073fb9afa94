import LibEst.Proxy.Forwarding
import LibEst.Proxy.KeygenResponse
import LibEst.Server.HttpRequest

/-! The dispatcher of a proxy over HTTP. A request is checked as far as the proxy itself can
decide about it, goes upstream where it has to, and what comes back from there is written to
the client. -/
namespace LibEst.Proxy.Dispatch

open LibEst.Basic LibEst.OpenSsl LibEst.Lib.ByteString LibEst.Lib.Trace
open LibEst.Server.AuthHeader LibEst.Server.Context LibEst.Server.CsrAttrs LibEst.Server.EnrollAuth
open LibEst.Server.HttpRequest
open LibEst.Server.Routing hiding estMaxPathSegmentLen
open LibEst.Client.Context
open LibEst.Client.Api hiding Reply
open LibEst.Client.Request hiding getHeader
open LibEst.Proxy.ClientTable hiding Reply
open LibEst.Proxy.Forwarding LibEst.Proxy.KeygenResponse

section Requests

/-- What a proxy does in a request, towards its server and towards its client. -/
inductive ProxyEvent where
  | upstream (event : Event)
  | downstream (event : HttpEvent)

/-- What `est_proxy_http_request` is called with. There is no body where no length of it
has been announced. -/
structure ProxyRequest extends Request where
  hasBody : Bool

/-- A proxy that its clients reach over HTTP. -/
structure HttpProxy where
  state : ProxyState
  http : state.ctx.server.transportMode = .http
  realm : Bytes
  caCerts : Option Bytes

/-- The proxy as the functions that answer a client see it. A retry is answered with the
delay that came from upstream last. -/
def HttpProxy.server (h : HttpProxy) (retryAfterDelay : Nat) : HttpServer where
  ctx := h.state.ctx.server
  http := h.http
  realm := h.realm
  retryPeriod := retryAfterDelay
  brskiRetryPeriod := 0
  estGetCacertsCb := none
  caCerts := h.caCerts
  estBrskiVoucherReqCb := none
  estBrskiVoucherStatusCb := none
  estBrskiEnrollStatusCb := none

/-- A path that has been taken apart. -/
structure Routed where
  parsed : ParsedUri
  short : ∀ segment, parsed.pathSeg = some segment → segment.length ≤ estMaxPathSegmentLen

theorem parseThird_short {U : UriParser} {brski : Bool} {third : UriPathSegment} {beyond segment : Bytes}
    (h : (parseThird U brski third beyond).pathSeg = some segment) :
    segment.length ≤ estMaxPathSegmentLen := by
  unfold parseThird at h
  dsimp only at h
  split at h
  · cases h
  · rename_i hshort
    split at h
    · split at h
      · cases h
      · cases h
        exact Nat.le_trans (List.length_take_le _ _) (Nat.le_of_not_lt hshort)
    · split at h <;> cases h

theorem parseUri_short {U : UriParser} {brski : Bool} {uri beyond : Bytes} {parsed : ParsedUri}
    (h : estParseUri U brski uri beyond = some parsed) :
    ∀ segment, parsed.pathSeg = some segment → segment.length ≤ estMaxPathSegmentLen := by
  intro segment hsegment
  unfold estParseUri at h
  split at h
  · cases h
    cases hsegment
  · cases h
    cases hsegment
  · split at h
    · cases h
      cases hsegment
    · split at h
      · cases h
      · split at h
        · cases h
          cases hsegment
        · split at h
          · cases h
          · cases h
            exact parseThird_short hsegment

/-- `est_parse_uri` on the path of a request. -/
def route (U : UriParser) (brski : Bool) (r : ProxyRequest) : Option Routed :=
  (estParseUri U brski r.uri r.behindUri).pmap Routed.mk fun _ => parseUri_short

theorem route_eq {U : UriParser} {brski : Bool} {r : ProxyRequest} {parsed : ParsedUri}
    (h : estParseUri U brski r.uri r.behindUri = some parsed) :
    route U brski r = some ⟨parsed, parseUri_short h⟩ := by
  unfold route
  simp only [h, Option.pmap_some]

end Requests

section Handlers

variable (P : Platform) (env : ClientEnv)

/-- The segment of the request, or else the one of the proxy, in the context of a client. -/
def putSegment (p : ProxyCtx) (pathSeg : Option Bytes) (client : ClientCtx) : ClientCtx :=
  match pathSeg.or p.uriPathSegment with
  | none => client
  | some segment => estProxySetPathSegment client segment

theorem withSegment_eq (p : ProxyCtx) (d : Downstream) (client : ClientCtx) :
    withSegment p d client = putSegment p d.request.pathSeg client := rfl

/-- The context of a client behind an exchange, with the delay that the proxy takes over. -/
def putClient (p : ProxyState) (id : Nat) (client : ClientCtx) : ProxyState :=
  { p with
    ctx := { p.ctx with retryAfterDelay := client.retryAfterDelay }
    clients := Function.update p.clients id (some client) }

/-- `est_handle_cacerts` on the certificates of the proxy or of its server. -/
def cacertsReply (certs : Option Bytes) : Reply :=
  match certs with
  | none => .refused .httpNotFound
  | some certs => .content (contentParts "application/pkcs7-mime" certs)

/-- Certificates of its own are not asked for upstream. -/
def estProxyHandleCacerts (h : HttpProxy) (thread : Thread P) (net : Network)
    (pathSeg : Option Bytes) : Traced Event (ProxyState × Reply) :=
  match h.caCerts with
  | some certs => pure (h.state, cacertsReply (some certs))
  | none => do
      let (p, found) ← ofOption (clientFor P env h.state thread)
      match found with
      | none => pure (p, .refused .noCtx)
      | some (id, client) =>
          let (client, rv, _) ← estClientGetCacerts env net (putSegment p.ctx pathSeg client)
          let reply := if rv = .none then cacertsReply client.retrievedCaCerts else .refused (passOn rv)
          pure (putClient p id client, reply)

/-- `est_send_csrattr_data`. -/
def sendCsrattrData (text : Bytes) : Reply :=
  if text = [] then .noContent else .content (contentParts "application/csrattrs" text)

/-- The attributes from upstream, with the challenge password where the proxy wants it and
they do not have it. -/
def withChallengePassword (ctx : EstCtx) (text : Bytes) : Reply :=
  if ctx.serverEnablePop then
    let (rv, popPresent) := estIsChallengePasswordPresent env.crypto env.asn1 text text.length
    if rv ≠ .none then .noContent
    else if popPresent then sendCsrattrData text
    else if text = [] then sendCsrattrData estCsrattrsPop
    else
      let (rv, textPop) := estAddChallengePassword env.crypto env.asn1 text text.length
      if rv ≠ .none then .noContent else sendCsrattrData textPop
  else sendCsrattrData text

/-- No attributes are as good as an empty list where the proxy has one to add. -/
def csrattrsReply (ctx : EstCtx) (answer : Except EstError (Option Bytes)) : Reply :=
  match answer with
  | .ok text => withChallengePassword env ctx (text.getD [])
  | .error rv =>
      if rv = .httpNoContent ∧ ctx.serverEnablePop then withChallengePassword env ctx []
      else .refused (passOn rv)

/-- The attributes are not kept in the context of the client. -/
def estProxyHandleCsrAttrs (h : HttpProxy) (thread : Thread P) (net : Network)
    (pathSeg : Option Bytes) : Traced Event (ProxyState × Reply) := do
  let (p, found) ← ofOption (clientFor P env h.state thread)
  match found with
  | none => pure (p, .refused .noCtx)
  | some (id, client) =>
      let (client, answer) ← estClientGetCsrattrs env net (putSegment p.ctx pathSeg client)
      pure (putClient p id { client with retrievedCsrattrs := none },
        csrattrsReply env p.ctx.server answer)

def keygenParts (key pkcs7 : Bytes) : List Part :=
  match estProxyPropagateKeygenRsp key pkcs7 with
  | header :: bodies => .header header :: bodies.map .body
  | [] => []

/-- `est_proxy_propagate_pkcs7` and `est_proxy_propagate_keygen_rsp`, or what has kept an
enrollment from coming to them. -/
def enrolledReply (enrollReq : EnrollReqType) (out : Returned) : Reply :=
  if out.rv = .none then
    match enrollReq with
    | .serverKeygen => .content (keygenParts (out.key.getD []) (out.cert.getD []))
    | _ =>
        .content
          (contentParts "application/pkcs7-mime; smime-type=certs-only" (out.cert.getD []))
  else if out.rv = .authPending then .challenge
  else .refused out.rv

/-- What an enrollment is given of a request; whether the writes get through is seen when
they are made. -/
def enrollment (r : ProxyRequest) (ssl : Ssl) (routed : Routed) (net : Network)
    (enrollReq : EnrollReqType) : Downstream where
  request :=
    { ssl := ssl, peerCert := ssl.peerCert, contentType := r.contentType.getD [], body := r.body
      pathSeg := routed.parsed.pathSeg, writes := true }
  conn := r.conn
  enrollReq := enrollReq
  net := net
  pathSeg_short := routed.short

def estProxyHandleEnroll (h : HttpProxy) (thread : Thread P) (d : Downstream) :
    Traced Event (ProxyState × Reply) := do
  let (p, out) ← estProxyHandle P env h.state thread d
  pure (p, enrolledReply d.enrollReq out)

/-- The handler of an operation, up to its first write. -/
def proxyReply (h : HttpProxy) (thread : Thread P) (r : ProxyRequest) (ssl : Ssl) (routed : Routed)
    (net : Network) : EstOperation → Traced Event (ProxyState × Reply)
  | .cacerts => estProxyHandleCacerts P env h thread net routed.parsed.pathSeg
  | .csrattrs => estProxyHandleCsrAttrs P env h thread net routed.parsed.pathSeg
  | .simpleReenroll => estProxyHandleEnroll P env h thread (enrollment r ssl routed net .reenroll)
  | .serverKeygen => estProxyHandleEnroll P env h thread (enrollment r ssl routed net .serverKeygen)
  | _ => estProxyHandleEnroll P env h thread (enrollment r ssl routed net .simpleEnroll)

end Handlers

section Dispatcher

variable (P : Platform) (env : ClientEnv) (U : UriParser) (brski : Bool)

/-- The codes that the dispatcher returns. -/
inductive ReturnCode where
  | code (rv : EstError)
  | badContentLen
  deriving DecidableEq

/-- The method, the content type and the body: the code that is sent and the one that is
returned. A proxy takes no method that only begins like the right one. -/
def wrongRequest (operation : EstOperation) (r : ProxyRequest) : Option (EstError × ReturnCode) :=
  match operation with
  | .cacerts | .csrattrs =>
      if r.method = ascii "GET" then none else some (.wrongMethod, .code .wrongMethod)
  | _ =>
      if r.method ≠ ascii "POST" then some (.wrongMethod, .code .wrongMethod)
      else if r.contentType = none then some (.badPkcs10, .code .badContentType)
      else if ¬ r.hasBody then some (.badPkcs10, .badContentLen)
      else none

/-- The operations that a proxy knows, in whatever build. -/
def proxies : EstOperation → Bool
  | .cacerts | .csrattrs | .simpleEnroll | .simpleReenroll | .serverKeygen => true
  | _ => false

/-- The writes of an answer, and the notice or the error behind them. -/
def conclude (S : HttpServer) (r : Request) (operation : EstOperation) (reply : Reply) (wire : Wire) :
    Traced HttpEvent EstError := do
  let (rc, wire) ← sendReply S r reply wire
  if served operation rc then announceEnd else giveUp S r rc rc wire

def handleOperation (h : HttpProxy) (thread : Thread P) (r : ProxyRequest) (ssl : Ssl)
    (routed : Routed) (net : Network) (operation : EstOperation) (wire : Wire) :
    Traced ProxyEvent (ProxyState × ReturnCode) :=
  match wrongRequest operation r with
  | some (sent, rc) => do
      let _ ← (giveUp (h.server h.state.ctx.retryAfterDelay) r.toRequest sent sent wire).rename
        .downstream
      pure (h.state, rc)
  | none => do
      let (p, reply) ← (proxyReply P env h thread r ssl routed net operation).rename .upstream
      let rc ← (conclude (h.server p.ctx.retryAfterDelay) r.toRequest operation reply wire).rename
        .downstream
      pure (p, .code rc)

/-- A request that does not get as far as to an operation. -/
def turnAway (h : HttpProxy) (t : Traced HttpEvent EstError) :
    Traced ProxyEvent (ProxyState × ReturnCode) := do
  let rc ← t.rename .downstream
  pure (h.state, .code rc)

def estProxyHttpRequest (h : HttpProxy) (thread : Thread P) (r : ProxyRequest) (net : Network)
    (wire : Wire) : Traced ProxyEvent (ProxyState × ReturnCode) :=
  let S := h.server h.state.ctx.retryAfterDelay
  if h.state.ctx.server.estMode ≠ .proxy then pure (h.state, .code .badMode)
  else
    match r.ssl with
    | none => turnAway h (giveUp S r.toRequest .noSslCtx .noSslCtx wire)
    | some ssl => do
        emit (.downstream (.notice .reqStart))
        let routed ← ofOption (route U brski r)
        if routed.parsed.rv ≠ .none then
          turnAway h (giveUp S r.toRequest routed.parsed.rv routed.parsed.rv wire)
        else
          match (routed.parsed.operation.or r.stale).filter proxies with
          | some operation => handleOperation P env h thread r ssl routed net operation wire
          | none =>
              turnAway h do
                let _ ← estSendHttpError S r.toRequest .httpNotFound wire
                announceEnd

end Dispatcher

end LibEst.Proxy.Dispatch
