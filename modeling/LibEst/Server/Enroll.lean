import LibEst.Server.CsrAttrs
import LibEst.Server.EnrollAuth
import LibEst.Server.TlsUid

/-! The two handlers that lead to the CA: enrollment with the key of the client,
new or renewed, and enrollment with a key that the server generates. An outcome
keeps what was decided on the way and the call of the CA callback, if one was
made. -/
namespace LibEst.Server.Enroll

open LibEst.Basic LibEst.OpenSsl LibEst.Base64 LibEst.Lib.ByteString LibEst.Asn1
open LibEst.Server.AuthHeader LibEst.Server.Context LibEst.Server.EnrollAuth
open LibEst.Server.CsrAttrs LibEst.Server.TlsUid

/-- What a handler is called with, and whether its writes get through. -/
structure EnrollRequest where
  ssl : Ssl
  peerCert : Option X509
  contentType : Bytes
  body : Bytes
  pathSeg : Option Bytes
  writes : Bool
  deriving DecidableEq

/-- A call of a CA callback; the key is the one that it may pass on. -/
structure CaCall where
  reqType : EnrollReqType
  request : CaRequest
  key : Option Bytes
  deriving DecidableEq

structure Outcome where
  rc : EstError
  cert : Option Bytes
  key : Option Bytes
  call : Option CaCall
  auth : Option AuthResult
  conn : MgConnection
  deriving DecidableEq

def oidCmcRa : Bytes := [0x2B, 0x06, 0x01, 0x05, 0x05, 0x07, 0x03, 0x1C]

def estCheckCmcRa (cert : X509) : Bool :=
  match cert.extKeyUsage with
  | some purposes => purposes.any (· = oidCmcRa)
  | none => false

def clientIsRa (peerCert : Option X509) : Bool := peerCert.any estCheckCmcRa

/-- The answer to a request that is not authorized. -/
def authError : AuthState → Option EstError
  | .httpAuth | .srpAuth | .certAuth => none
  | .httpAuthPending => some .authPending
  | .csrParseFail => some .badPkcs10
  | .unauthorized => some .authFail

theorem authError_eq_none_iff (state : AuthState) :
    authError state = none ↔ state.authorized = true := by
  cases state <;> simp [authError, AuthState.authorized]

def wrongContentType (ctx : EstCtx) (contentType : Bytes) : Bool :=
  decide (ctx.transportMode = .http) && contentType.take 18 != ascii "application/pkcs10"

variable (C : Crypto) (A : Asn1Ops)

/-- A registration authority needs no proof of possession. -/
def popCheck (ctx : EstCtx) (r : EnrollRequest) (csr : X509Req) : Option EstError :=
  if clientIsRa r.peerCert then some .none else estTlsUidAuth ctx r.ssl csr

/-- The proof of possession and the attributes, which both handlers check last. -/
def requestChecks (ctx : EstCtx) (r : EnrollRequest) (csr : X509Req) (body : Bytes) :
    Option EstError :=
  (popCheck ctx r csr).map fun pop =>
    if pop ≠ .none then .authFailTlsuid
    else if ctx.enforceCsrattrs ∧ estServerAllCsrattrsPresent C A ctx body r.peerCert ≠ .none then
      .csrAttrMissing
    else .none

/-- The user that the CA is told: the text that the connection holds once the
request is authorized. -/
def caUser (ctx : EstCtx) (conn : MgConnection) : Option Bytes :=
  match ctx.transportMode with
  | .http => some conn.userId
  | .coap => none

/-- What a handler returns for the answer of the CA. -/
def caResult (ctx : EstCtx) (r : EnrollRequest) (answer : CaAnswer) : EstError :=
  if answer.rv = .none ∧ answer.cert ≠ [] then
    if ctx.transportMode = .http ∧ !r.writes then .httpWrite else .none
  else if answer.rv = .caEnrollRetry then .caEnrollRetry
  else .caEnrollFail

/-- An outcome before the CA is asked. -/
def refuse (rc : EstError) (auth : Option AuthResult) (conn : MgConnection) : Outcome where
  rc := rc
  cert := none
  key := none
  call := none
  auth := auth
  conn := conn

/-- Authorization and the parse of the request, which both handlers start with. -/
def admitted (ctx : EstCtx) (conn : MgConnection) (r : EnrollRequest) (enrollReq : EnrollReqType)
    (next : AuthResult → X509Req → Option Outcome) : Option Outcome := do
  if wrongContentType ctx r.contentType then some (refuse .badContentType none conn)
  else
    let auth ← estEnrollAuth C ctx conn r.ssl r.pathSeg enrollReq r.body
    match authError auth.state with
    | some rc => some (refuse rc (some auth) auth.conn)
    | none =>
        -- a request that was parsed for the check of the enhanced mode is not parsed again
        match auth.csr.or (estServerParseCsr C r.body) with
        | none => some (refuse .badPkcs10 (some auth) auth.conn)
        | some csr => next auth csr

def askCa (ctx : EstCtx) (cb : CaRequest → CaAnswer) (r : EnrollRequest)
    (enrollReq : EnrollReqType) (auth : AuthResult) : Outcome :=
  let request : CaRequest :=
    { pkcs10 := r.body, userId := caUser ctx auth.conn, peerCert := r.peerCert
      pathSeg := r.pathSeg }
  let answer := cb request
  { rc := caResult ctx r answer
    cert := if answer.rv = .none ∧ answer.cert ≠ [] then some answer.cert else none
    key := none
    call := some { reqType := enrollReq, request := request, key := none }
    auth := some auth
    conn := auth.conn }

def estHandleSimpleEnroll (ctx : EstCtx) (conn : MgConnection) (r : EnrollRequest)
    (enrollReq : EnrollReqType) : Option Outcome :=
  let enroll (callback : Option (CaRequest → CaAnswer)) : Option Outcome :=
    match callback with
    | none => some (refuse .nullCallback none conn)
    | some cb =>
        admitted C ctx conn r enrollReq fun auth csr =>
          if estServerCheckCsr C csr ≠ 0 then some (refuse .badPkcs10 (some auth) auth.conn)
          else
            (requestChecks C A ctx r csr r.body).map fun rc =>
              if rc ≠ .none then refuse rc (some auth) auth.conn
              else askCa ctx cb r enrollReq auth
  match enrollReq with
  | .simpleEnroll => enroll ctx.estEnrollPkcs10Cb
  | .reenroll => enroll ctx.estReenrollPkcs10Cb
  | .serverKeygen => some (refuse .invalidParameters none conn)

/-- The request of the client for the key of the server. -/
def rekey (ctx : EstCtx) (csr : X509Req) (privKey : EvpPkey) : Except EstError X509Req :=
  match reqSetPubkey C csr privKey with
  | none => .error .badPkcs10
  | some csr =>
      match estX509ReqSign C csr privKey ctx.signingDigest with
      | none => .error .x509Sign
      | some csr => if estServerCheckCsr C csr ≠ 0 then .error .badPkcs10 else .ok csr

def askCaForKey (ctx : EstCtx) (cb : CaRequest → Bytes → CaAnswer × Bytes) (r : EnrollRequest)
    (auth : AuthResult) (body b64der : Bytes) : Outcome :=
  let request : CaRequest :=
    { pkcs10 := body, userId := caUser ctx auth.conn, peerCert := r.peerCert
      pathSeg := r.pathSeg }
  let (answer, key) := cb request b64der
  let rc := caResult ctx r answer
  { rc := rc
    cert := if rc = .none then some answer.cert else none
    key := if rc = .none then some key else none
    call := some { reqType := .serverKeygen, request := request, key := some b64der }
    auth := some auth
    conn := auth.conn }

/-- A key pair, its text, the request made over to it, the checks and the CA. -/
def generateAndEnroll (ctx : EstCtx) (cb : CaRequest → Bytes → CaAnswer × Bytes)
    (generated : EstError × Option EvpPkey) (r : EnrollRequest) (auth : AuthResult)
    (csr : X509Req) : Option Outcome :=
  match generated with
  | (.none, some privKey) =>
      match C.i2dPrivateKey privKey with
      | none => some (refuse .malloc (some auth) auth.conn)
      | some der => do
          let b64der ← estBase64Encode der (der.length * 2) true
          match rekey C ctx csr privKey with
          | .error rc => some (refuse rc (some auth) auth.conn)
          | .ok csr =>
              let body := base64Text true (C.i2dX509Req csr)
              (requestChecks C A ctx r csr body).map fun rc =>
                if rc ≠ .none then refuse rc (some auth) auth.conn
                else askCaForKey ctx cb r auth body b64der
  | _ => some (refuse .noKey (some auth) auth.conn)

def estHandleServerKeygen (ctx : EstCtx) (conn : MgConnection) (r : EnrollRequest) :
    Option Outcome :=
  match ctx.estServerKeygenPkcs10Cb, ctx.keygenCb with
  | some cb, some generated =>
      admitted C ctx conn r .serverKeygen fun auth csr =>
        generateAndEnroll C A ctx cb generated r auth csr
  | _, _ => some (refuse .nullCallback none conn)

/-- The handler of an operation. -/
def estHandleEnroll (ctx : EstCtx) (conn : MgConnection) (r : EnrollRequest)
    (enrollReq : EnrollReqType) : Option Outcome :=
  match enrollReq with
  | .serverKeygen => estHandleServerKeygen C A ctx conn r
  | _ => estHandleSimpleEnroll C A ctx conn r enrollReq

end LibEst.Server.Enroll
