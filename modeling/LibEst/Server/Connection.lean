import LibEst.Lib.Machine
import LibEst.Server.Enroll

/-! The life of an HTTP connection. Requests are served one after another from
one connection object. Before each of them some of its fields are reset; the
user name is not among them. -/
namespace LibEst.Server.Connection

open LibEst.Basic LibEst.OpenSsl LibEst.Lib.ByteString LibEst.Asn1
open LibEst.Server.AuthHeader LibEst.Server.Context LibEst.Server.EnhancedCertAuth
open LibEst.Server.EnrollAuth LibEst.Server.Enroll

variable (C : Crypto) (A : Asn1Ops)

section Brski

/-- Nobody sends a certificate request here, so that there is none to check. -/
def brskiCredentials (ctx : EstCtx) (conn : MgConnection) (ssl : Ssl) (peer : Option X509)
    (rv : AuthState) : Credentials :=
  match peer with
  | some cert =>
      if ctx.enhancedCertAuthEnabled ∧ rv = .certAuth then
        let out := handleEnhancedCertAuth C ctx ssl cert [] estCreateAh false
        { result := out.result, ah := out.ah, csr := none, userId := conn.userId }
      else headerCredentials C ctx conn
  | none => headerCredentials C ctx conn

/-- Unlike an enrollment, a bad header is never made up for by a certificate. -/
def brskiHttpStage (cb : AuthCall → Bool) (conn : MgConnection) (peer : Option X509)
    (pathSeg : Option Bytes) (creds : Credentials) : AuthResult :=
  let conn := { conn with userId := creds.userId }
  let done (state : AuthState) (calls : List AuthCall) (conn : MgConnection) : AuthResult :=
    { state := state, hdrResult := creds.result, calls := calls, csr := none, conn := conn }
  match creds.result with
  | .good =>
      let call : AuthCall := { ah := creds.ah, peer := peer, pathSeg := pathSeg }
      done (askApplication cb call) [call] conn
  | .missing => done .httpAuthPending [] { conn with statusCode := 401 }
  | _ => done .unauthorized [] conn

/-- The CoAP branch: an accepted peer keeps the verdict that its certificate got. -/
def brskiCoapStage (cb : Option (AuthCall → Bool)) (conn : MgConnection) (peer : X509)
    (pathSeg : Option Bytes) (out : EcaOutcome) : Option AuthResult :=
  let done (state : AuthState) (calls : List AuthCall) : AuthResult :=
    { state := state, hdrResult := out.result, calls := calls, csr := none, conn := conn }
  match out.result with
  | .good =>
      let call : AuthCall := { ah := out.ah, peer := some peer, pathSeg := pathSeg }
      cb.map fun cb => done (if cb call then .certAuth else .unauthorized) [call]
  | _ => some (done .unauthorized [])

def estBrskiAuth (ctx : EstCtx) (conn : MgConnection) (ssl : Ssl) (pathSeg : Option Bytes) :
    Option AuthResult :=
  let asIs (state : AuthState) : AuthResult :=
    { state := state, hdrResult := .ecaErr, calls := [], csr := none, conn := conn }
  match checkForTlsCertAuth ssl with
  | (false, _, rv) => some (asIs rv)
  | (true, peer, rv) =>
      let rv := if rv ≠ .certAuth ∧ ssl.srpUsername.isSome then .srpAuth else rv
      match ctx.transportMode with
      | .http =>
          match ctx.estHttpAuthCb with
          | some cb =>
              if rv = .unauthorized ∨ ctx.requireHttpAuth = .required then
                some (brskiHttpStage cb conn peer pathSeg (brskiCredentials C ctx conn ssl peer rv))
              else some (asIs rv)
          | none => some (asIs rv)
      | .coap =>
          match peer with
          | none => some (asIs .unauthorized)
          | some cert =>
              if ctx.enhancedCertAuthEnabled then
                brskiCoapStage ctx.estHttpAuthCb conn cert pathSeg
                  (handleEnhancedCertAuth C ctx ssl cert [] estCreateAh false)
              else some (asIs rv)

/-- A voucher request or a status report: what is wrong with it before anybody is
authorized, and what the registrar's callback leads to afterwards. -/
structure BrskiRequest where
  ssl : Ssl
  pathSeg : Option Bytes
  early : Option EstError
  rc : EstError
  retryAfter : Bool
  deriving DecidableEq

end Brski

/-- The status of the answer that `est_send_http_error` sends. -/
def errorStatus (writes : Bool) : EstError → Int
  | .caEnrollRetry => if writes then 202 else 500
  | .httpNoContent => 204
  | .httpBadReq | .csrAttrMissing | .badAsn1Hex | .badPkcs10 | .badContentType | .wrongMethod
  | .noSslCtx => 400
  | .authFail | .authFailTlsuid => 401
  | .httpNotFound | .httpInvalidPathSegment => 404
  | .httpLocked => 423
  | .httpUnsupported => 502
  | .ipConnect => 504
  | _ => 500

/-- What a request asks for. `plain` is every request that is answered without a
look at credentials, from the CA certificates to a line that is not HTTP; it
leaves a status behind. -/
inductive Operation where
  | plain (statusCode : Int)
  | enroll (enrollReq : EnrollReqType) (request : EnrollRequest)
  | brski (request : BrskiRequest)

/-- A request and the context that it meets, which the application may have
changed since the last one. -/
structure HttpRequest where
  ctx : EstCtx
  server : ctx.estMode = .server
  source : AuthSource
  connectionHeader : Option Bytes
  httpVersion : Bytes
  operation : Operation

/-- What a request has set off: the call of a CA callback, and the calls of
`est_http_auth_cb` that returned true. -/
structure Event where
  call : Option CaCall
  accepted : List AuthCall

def acceptedCalls (ctx : EstCtx) (auth : Option AuthResult) : List AuthCall :=
  match ctx.estHttpAuthCb, auth with
  | some cb, some auth => auth.calls.filter cb
  | _, _ => []

/-- The part of a connection that outlives a request. -/
structure ConnState where
  userId : Bytes
  isOpen : Bool
  deriving DecidableEq

def newConnection : ConnState where
  userId := []
  isOpen := true

def resetPerRequestAttributes (s : ConnState) (source : AuthSource) : MgConnection where
  source := source
  userId := s.userId
  statusCode := -1

/-- Whether the client wants to keep the connection. -/
def wantsKeepAlive (r : HttpRequest) : Bool :=
  match r.connectionHeader with
  | some header => header.map tolower = ascii "keep-alive"
  | none => r.httpVersion.take 3 = ascii "1.1"

/-- Every connection of the library has keep-alive enabled. -/
def shouldKeepAlive (r : HttpRequest) (statusCode : Int) : Bool :=
  statusCode ≠ 202 && statusCode < 400 && wantsKeepAlive r

/-- The answer to a failed enrollment; who is asked for credentials has got one. -/
def enrollStatus (out : Outcome) (writes : Bool) : Int :=
  if out.rc = .none ∨ out.rc = .authPending then out.conn.statusCode else errorStatus writes out.rc

/-- The answer to a voucher request or a status report. -/
def brskiStatus (rc : EstError) (statusCode : Int) : Int :=
  if rc = .none ∨ rc = .authPending then statusCode
  else if rc = .authFail then errorStatus true .authFail
  else errorStatus true .badPkcs10

def handleBrski (ctx : EstCtx) (conn : MgConnection) (r : BrskiRequest) :
    Option (MgConnection × Event) :=
  match r.early with
  | some rc =>
      some ({ conn with statusCode := brskiStatus rc conn.statusCode },
        { call := none, accepted := [] })
  | none => do
      let auth ← estBrskiAuth C ctx conn r.ssl r.pathSeg
      let event : Event := { call := none, accepted := acceptedCalls ctx (some auth) }
      match auth.state with
      | .httpAuth | .srpAuth | .certAuth =>
          let statusCode := if r.retryAfter then 202 else auth.conn.statusCode
          some ({ auth.conn with statusCode := brskiStatus r.rc statusCode }, event)
      | .httpAuthPending =>
          some ({ auth.conn with statusCode := brskiStatus .authPending auth.conn.statusCode }, event)
      | _ =>
          some ({ auth.conn with statusCode := brskiStatus .authFail auth.conn.statusCode }, event)

/-- A request on the connection as it stands, with the connection that is left. -/
def estHttpRequest (r : HttpRequest) (conn : MgConnection) : Option (MgConnection × Event) :=
  match r.operation with
  | .plain statusCode =>
      some ({ conn with statusCode := statusCode }, { call := none, accepted := [] })
  | .enroll enrollReq request => do
      let out ← estHandleEnroll C A r.ctx conn request enrollReq
      some ({ out.conn with statusCode := enrollStatus out request.writes },
        { call := out.call, accepted := acceptedCalls r.ctx out.auth })
  | .brski request => handleBrski C r.ctx conn request

/-- One round of `process_new_connection`. -/
def processRequest (s : ConnState) (r : HttpRequest) : Option (ConnState × Event) := do
  if s.isOpen then
    let (conn, event) ← estHttpRequest C A r (resetPerRequestAttributes s r.source)
    some ({ userId := conn.userId, isOpen := shouldKeepAlive r conn.statusCode }, event)
  else none

end LibEst.Server.Connection
