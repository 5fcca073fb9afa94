import LibEst.Client.Request
import LibEst.Server.TlsUid

/-! The enroll calls of the client. Each connects, sends its request, and after a
challenge connects and sends a second time; they differ in the request, and in
whether they forget the challenge afterwards. -/
namespace LibEst.Client.Enroll

open LibEst.Basic LibEst.OpenSsl LibEst.Base64 LibEst.Lib.ByteString LibEst.Lib.Trace
open LibEst.Server.AuthHeader LibEst.Server
open LibEst.Client.Context LibEst.Client.AuthHeader LibEst.Client.Http LibEst.Client.Request

def estMaxClientCertLen : Nat := 4096
def estMaxClientPkeyLen : Nat := 8192

variable (env : ClientEnv)

/-- What an enroll call returns, with the two lengths it writes, null where it
writes none. -/
structure Enrolled where
  rv : EstError
  pkcs7Len : Option Nat
  pkcs8Len : Option Nat
  deriving DecidableEq, Repr

def failed (rv : EstError) : Enrolled := ⟨rv, none, none⟩

section Request

def enrollResource : EstOperation → Bytes
  | .simpleReenroll => estSimpleReenroll
  | .serverKeygen => estServerKeygen
  | _ => estSimpleEnroll

/-- The inner empty text is the header of an operation that does not enroll. -/
def enrollHeader (x : Exchange) (ctx : ClientCtx) (op : EstOperation) (pkcs10Len : Nat) :
    Option Bytes :=
  match op with
  | .simpleEnroll => estClientBuildEnrollHeader env x ctx pkcs10Len
  | .simpleReenroll => estClientBuildReenrollHeader env x ctx pkcs10Len
  | .serverKeygen => estClientBuildServerKeygenHeader env x ctx pkcs10Len
  | _ => some []

/-- A certificate, and for a generated key that key, of the right sizes. -/
def enrollBuffers (op : EstOperation) (buffers : Buffers) : Except EstError (Bytes × Option Bytes) :=
  let cert := buffers.cert.getD []
  let key := buffers.key.getD []
  if cert.length = 0 then .error .zeroLengthBuf
  else if estMaxClientCertLen < cert.length then .error .bufExceedsMaxLen
  else if op = .serverKeygen then
    if key.length = 0 then .error .zeroLengthBuf
    else if estMaxClientPkeyLen < key.length then .error .bufExceedsMaxLen
    else .ok (cert, some key)
  else .ok (cert, none)

/-- The body of a request: the request in base64 with line feeds. -/
def pkcs10Text (csr : X509Req) : Bytes := base64Text true (env.crypto.i2dX509Req csr)

def estClientSendEnrollRequestInternal (x : Exchange) (ctx : ClientCtx) (csr : X509Req)
    (privKey : Option EvpPkey) (op : EstOperation) :
    Traced Event (ClientCtx × Except EstError (Bytes × Option Bytes)) := do
  let body := pkcs10Text env csr
  let hdr ← ofOption (enrollHeader env x ctx op body.length)
  let auth := authLine (authEnv env x) ctx (resourceUri (enrollResource op))
  let (ctx, answer) ← exchange x ctx op auth (some csr) privKey hdr body
  pure (ctx, answer.bind (enrollBuffers op))

end Request

section Storing

/-- The first certificate of the structure and the key belong together. -/
def estClientVerifyKeyAndCert (key cert : Bytes) : EstError :=
  let decode (text : Bytes) : Option Bytes :=
    let decoded := estBase64Decode env.crypto.bioRead text text.length
    if decoded = [] then none else some decoded
  match (decode cert).bind env.d2iPkcs7 with
  | none => .validation
  | some [] => .validation
  | some (x509 :: _) =>
      match (decode key).bind env.d2iPrivateKey with
      | none => .validation
      | some pkey => if env.keyMatches x509 pkey then .none else .validation

/-- Both results are in the context before they are compared. -/
def storeEnrolled (ctx : ClientCtx) (cert : Bytes) (key : Option Bytes) : ClientCtx × Enrolled :=
  let ctx := { ctx with enrolledClientCert := some cert }
  match key with
  | none => (ctx, ⟨.none, some cert.length, none⟩)
  | some key =>
      let ctx := { ctx with serverGenClientPrivKey := some key }
      if estClientVerifyKeyAndCert env key cert = .none then
        (ctx, ⟨.none, some cert.length, some key.length⟩)
      else (ctx, ⟨.validation, some 0, some 0⟩)

def estClientEnrollReq (x : Exchange) (ctx : ClientCtx) (csr : X509Req)
    (privKey : Option EvpPkey) (op : EstOperation) : Traced Event (ClientCtx × Enrolled) := do
  let (ctx, answer) ← estClientSendEnrollRequestInternal env x ctx csr privKey op
  match answer with
  | .error rv => pure (ctx, failed rv)
  | .ok (cert, key) => pure (storeEnrolled env ctx cert key)

/-- The challenge password is called for by the server or by the application. -/
def popRequired (ctx : ClientCtx) : Bool := ctx.csrPopRequired || ctx.clientForcePop

/-- Sends a request that has been built, or reports why it has not. -/
def enrollBuilt (x : Exchange) (ctx : ClientCtx) (built : Option (Except EstError X509Req))
    (privKey : EvpPkey) (op : EstOperation) : Traced Event (ClientCtx × Enrolled) := do
  match ← ofOption built with
  | .error rv => pure (ctx, failed rv)
  | .ok csr => estClientEnrollReq env x ctx csr (some privKey) op

def estClientEnrollPkcs10 (x : Exchange) (ssl : Ssl) (ctx : ClientCtx) (csr : X509Req)
    (op : EstOperation) (privKey : EvpPkey) : Traced Event (ClientCtx × Enrolled) :=
  enrollBuilt env x ctx (TlsUid.estClientEnrollPkcs10 env.crypto (popRequired ctx) ssl csr privKey
    ctx.signingDigest) privKey op

def estClientEnrollCn (x : Exchange) (ssl : Ssl) (ctx : ClientCtx) (cn : Bytes)
    (op : EstOperation) (pkey : EvpPkey) : Traced Event (ClientCtx × Enrolled) :=
  enrollBuilt env x ctx (TlsUid.estGeneratePkcs10 env.crypto (popRequired ctx) ssl cn pkey
    ctx.signingDigest) pkey op

end Storing

section Calls

/-- One attempt over a connection. -/
abbrev Attempt := Exchange → Ssl → ClientCtx → Traced Event (ClientCtx × Enrolled)

/-- What follows a first attempt: one more where it met a challenge. The last
component says whether the end was reached without an early exit. -/
def secondAttempt (net : Network) (attempt : Attempt) (ctx : ClientCtx) (first : Enrolled) :
    Traced Event (ClientCtx × Enrolled × Bool) :=
  if first.rv = .authFail ∧ hasAuthenticated ctx.authMode then
    if ctx.authMode = .digest ∧ env.fipsMode then pure (ctx, failed .badMode, false)
    else
      match (net 1).connect with
      | .error failure => pure (ctx, failed failure.toError, false)
      | .ok ssl => do
          let (ctx, second) ← attempt (net 1) ssl ctx
          pure (ctx, second, true)
  else pure (ctx, first, true)

def attemptTwice (net : Network) (ctx : ClientCtx) (attempt : Attempt) :
    Traced Event (ClientCtx × Enrolled × Bool) :=
  match (net 0).connect with
  | .error failure => pure (ctx, failed failure.toError, false)
  | .ok ssl => do
      let (ctx, first) ← attempt (net 0) ssl ctx
      secondAttempt env net attempt ctx first

/-- The mode is reset at the end, but not on an early exit. -/
def estClientEnrollInternal (net : Network) (ctx : ClientCtx) (cn : Bytes)
    (newPublicKey : Option EvpPkey) (op : EstOperation) : Traced Event (ClientCtx × Enrolled) :=
  if ¬ ctx.estClientInitialized then pure (ctx, failed .clientNotInitialized)
  else
    match newPublicKey with
    | none => pure (ctx, failed .noKey)
    | some pkey => do
        let (ctx, enrolled, finished) ← attemptTwice env net ctx fun x ssl ctx =>
          estClientEnrollCn env x ssl ctx cn op pkey
        pure (if finished then { ctx with authMode := .none } else ctx, enrolled)

def estClientServerKeygenEnroll (net : Network) (ctx : ClientCtx) (cn : Bytes)
    (newPublicKey : Option EvpPkey) : Traced Event (ClientCtx × Enrolled) :=
  estClientEnrollInternal env net ctx cn newPublicKey .serverKeygen

def estClientEnroll (net : Network) (ctx : ClientCtx) (cn : Bytes)
    (newPublicKey : Option EvpPkey) : Traced Event (ClientCtx × Enrolled) :=
  estClientEnrollInternal env net ctx cn newPublicKey .simpleEnroll

/-- The request for a certificate that is there already, with its extensions
copied. The inner null is a copy that failed. -/
def reenrollRequest (cert : X509) (privKey : EvpPkey) : Except EstError (Option X509Req) :=
  if ¬ env.hasSignature cert then .error .badX509
  else if ¬ env.checkPrivateKey cert privKey then .error .clientInvalidKey
  else
    match env.x509ToX509Req cert with
    | none => .error .noCsr
    | some req => .ok (if env.extCount cert = 0 then some req else env.addExtensions cert req)

/-- Where the extensions cannot be copied, the code of the check before is what is
returned. -/
def estClientReenroll (net : Network) (ctx : ClientCtx) (cert : Option X509)
    (privKey : Option EvpPkey) : Traced Event (ClientCtx × Enrolled) :=
  match cert, privKey with
  | none, _ => pure (ctx, failed .noCert)
  | some _, none => pure (ctx, failed .noKey)
  | some cert, some privKey =>
      if ¬ ctx.estClientInitialized then pure (ctx, failed .clientNotInitialized)
      else
        match reenrollRequest env cert privKey with
        | .error rv => pure (ctx, failed rv)
        | .ok none => pure (ctx, failed .none)
        | .ok (some req) => do
            let (ctx, enrolled, _) ← attemptTwice env net ctx fun x ssl ctx =>
              estClientEnrollPkcs10 env x ssl ctx req .simpleReenroll privKey
            pure (ctx, enrolled)

/-- A request of the application, as it is where there is no private key. -/
def estClientEnrollCsrInternal (net : Network) (ctx : ClientCtx) (csr : Option X509Req)
    (privKey : Option EvpPkey) (op : EstOperation) : Traced Event (ClientCtx × Enrolled) :=
  match csr with
  | none => pure (ctx, failed .noCsr)
  | some csr =>
      if ¬ ctx.estClientInitialized then pure (ctx, failed .clientNotInitialized)
      else do
        let (ctx, enrolled, _) ← attemptTwice env net ctx fun x ssl ctx =>
          match privKey with
          | some privKey => estClientEnrollPkcs10 env x ssl ctx csr op privKey
          | none => estClientEnrollReq env x ctx csr none op
        pure (ctx, enrolled)

def estClientEnrollCsr (net : Network) (ctx : ClientCtx) (csr : Option X509Req)
    (privKey : Option EvpPkey) : Traced Event (ClientCtx × Enrolled) :=
  estClientEnrollCsrInternal env net ctx csr privKey .simpleEnroll

def estClientServerKeygenEnrollCsr (net : Network) (ctx : ClientCtx) (csr : Option X509Req)
    (privKey : Option EvpPkey) : Traced Event (ClientCtx × Enrolled) :=
  if privKey = none then pure (ctx, failed .noKey)
  else estClientEnrollCsrInternal env net ctx csr privKey .serverKeygen

end Calls

section Copying

/-- What is handed out is no longer in the context. -/
def estClientCopyEnrolledCert (ctx : ClientCtx) : ClientCtx × Except EstError Bytes :=
  if ¬ ctx.estClientInitialized then (ctx, .error .clientNotInitialized)
  else
    match ctx.enrolledClientCert with
    | none => (ctx, .error .noCertificate)
    | some cert => ({ ctx with enrolledClientCert := none }, .ok cert)

def estClientCopyServerGeneratedKey (ctx : ClientCtx) : ClientCtx × Except EstError Bytes :=
  if ¬ ctx.estClientInitialized then (ctx, .error .clientNotInitialized)
  else
    match ctx.serverGenClientPrivKey with
    | none => (ctx, .error .noKey)
    | some key => ({ ctx with serverGenClientPrivKey := none }, .ok key)

end Copying

end LibEst.Client.Enroll
