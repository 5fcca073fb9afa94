import LibEst.Lib.Trace
import LibEst.Client.AuthHeader
import LibEst.Client.Http
import LibEst.Server.CsrAttrs

/-! One request of the client and the answer to it. A request is recorded at the
moment of the write, together with the context as it is then. -/
namespace LibEst.Client.Request

open LibEst.Basic LibEst.OpenSsl LibEst.Base64 LibEst.Asn1 LibEst.Lib.ByteString LibEst.Lib.Trace
open LibEst.Server.AuthHeader LibEst.Server.AuthDigest
open LibEst.Client.Context LibEst.Client.AuthHeader LibEst.Client.Http

/-- The libraries behind the client. Certificates in a PKCS7 structure are those
of signed data; the key and the certificate match where a TLS context takes both. -/
structure ClientEnv where
  crypto : Crypto
  asn1 : Asn1Ops
  md5 : Md5
  /-- `EST_VER_STRING`. -/
  userAgent : Bytes
  fipsMode : Bool
  d2iPkcs7 : Bytes → Option (List X509)
  d2iPrivateKey : Bytes → Option EvpPkey
  keyMatches : X509 → EvpPkey → Bool
  /-- The certificates without their revocation lists. -/
  verifyCacertResp : Bytes → Except EstError Bytes
  convertP7b64ToPem : Bytes → Option Bytes
  loadTrustedCerts : Bytes → EstError
  setCertAndKey : X509 → EvpPkey → Bool
  hasSignature : X509 → Bool
  checkPrivateKey : X509 → EvpPkey → Bool
  x509ToX509Req : X509 → Option X509Req
  extCount : X509 → Nat
  addExtensions : X509 → X509Req → Option X509Req
  parsePathSeg : Bytes → EstError

/-- The ways in which `est_client_connect` fails. -/
inductive ConnectFailure where
  | resolve
  | connect
  | tlsContext
  | handshake
  | serverName
  deriving DecidableEq

def ConnectFailure.toError : ConnectFailure → EstError
  | .resolve => .ipGetaddr
  | .connect => .ipConnect
  | .tlsContext => .sslNew
  | .handshake => .sslConnect
  | .serverName => .fqdnMismatch

/-- What the network and the machine do in one exchange. -/
structure Exchange where
  connect : Except ConnectFailure Ssl
  wrote : Bool
  reads : List SslRead
  random : Option Bytes
  stack : Bytes

/-- The exchanges of one call, in their order. -/
abbrev Network := Nat → Exchange

/-- A request as it is written. The key is the one that the call has for signing
the certificate request. -/
structure Sent where
  ctx : ClientCtx
  op : EstOperation
  auth : AuthLine
  csr : Option X509Req
  privKey : Option EvpPkey
  request : Bytes
  exchange : Exchange

inductive Event where
  | sent (sent : Sent)
  | slept (seconds : Nat)
  | copiedCacerts
  | reloadedTrust

section Headers

variable (env : ClientEnv)

def authEnv (x : Exchange) : AuthEnv where
  md5 := env.md5
  random := x.random
  stack := x.stack

def estPathPrefix : Bytes := ascii "/.well-known/est"

def estSimpleEnroll : Bytes := ascii "simpleenroll"
def estSimpleReenroll : Bytes := ascii "simplereenroll"
def estServerKeygen : Bytes := ascii "serverkeygen"
def estGetCacerts : Bytes := ascii "cacerts"
def estGetCsrattrs : Bytes := ascii "csrattrs"

/-- The URI of a digest does not have the path segment in it. -/
def resourceUri (resource : Bytes) : Bytes := estPathPrefix ++ ascii "/" ++ resource

def pathSegment (ctx : ClientCtx) : Bytes :=
  match ctx.uriPathSegment with
  | none => []
  | some segment => ascii "/" ++ segment

/-- The lines that all requests have, from a method and a resource. -/
def requestLines (ctx : ClientCtx) (method resource : Bytes) : Bytes :=
  method ++ ascii " " ++ estPathPrefix ++ pathSegment ctx ++ ascii "/" ++ resource ++
    ascii " HTTP/1.1" ++ crlf ++ ascii "User-Agent: " ++ env.userAgent ++ crlf ++
    ascii "Connection: close" ++ crlf ++ ascii "Host: " ++ ctx.estServer ++ ascii ":" ++
    decimal ctx.estPortNum ++ crlf ++ ascii "Accept: */*" ++ crlf

def getHeader (ctx : ClientCtx) (resource : Bytes) : Bytes :=
  snprintf estHttpReqTotalLen (requestLines env ctx (ascii "GET") resource)

def postHeader (ctx : ClientCtx) (resource : Bytes) (pkcs10Len : Nat) : Bytes :=
  snprintf estHttpReqTotalLen (requestLines env ctx (ascii "POST") resource ++
    ascii "Content-Type: application/pkcs10" ++ crlf ++
    ascii "Content-Length: " ++ decimal pkcs10Len ++ crlf)

/-- A header that is too long is given up. -/
def limitHeader (hdr : Bytes) : Bytes := if estHttpHdrMax < hdr.length then [] else hdr

def estClientBuildCacertsHeader (ctx : ClientCtx) : Bytes :=
  limitHeader (getHeader env ctx estGetCacerts)

def estClientBuildCsrHeader (x : Exchange) (ctx : ClientCtx) : Option Bytes :=
  (estClientAddAuthHdr (authEnv env x) ctx (getHeader env ctx estGetCsrattrs)
    (resourceUri estGetCsrattrs)).map limitHeader

def estClientBuildEnrollHeader (x : Exchange) (ctx : ClientCtx) (pkcs10Len : Nat) : Option Bytes :=
  estClientAddAuthHdr (authEnv env x) ctx (postHeader env ctx estSimpleEnroll pkcs10Len)
    (resourceUri estSimpleEnroll)

def estClientBuildReenrollHeader (x : Exchange) (ctx : ClientCtx) (pkcs10Len : Nat) :
    Option Bytes :=
  (estClientAddAuthHdr (authEnv env x) ctx (postHeader env ctx estSimpleReenroll pkcs10Len)
    (resourceUri estSimpleReenroll)).map limitHeader

def estClientBuildServerKeygenHeader (x : Exchange) (ctx : ClientCtx) (pkcs10Len : Nat) :
    Option Bytes :=
  estClientAddAuthHdr (authEnv env x) ctx (postHeader env ctx estServerKeygen pkcs10Len)
    (resourceUri estServerKeygen)

end Headers

section Writing

/-- A line end behind a text in the buffer of the request. Where it just fits, the
zero that ends a string takes the place of its second byte. -/
def addLineEnd (text : Bytes) : Option Bytes :=
  if text.length + 2 < estHttpReqTotalLen then some (text ++ crlf)
  else if text.length + 2 = estHttpReqTotalLen then some (text ++ [13, 0])
  else none

/-- The header, the data and the two line ends; null where they leave the buffer. -/
def buildRequest (hdr body : Bytes) : Option Bytes := do
  let text ← addLineEnd hdr
  if estHttpReqDataMax < body.length then none else addLineEnd (text ++ body)

/-- Writes a request and reads the answer. -/
def exchange (x : Exchange) (ctx : ClientCtx) (op : EstOperation) (auth : AuthLine)
    (csr : Option X509Req) (privKey : Option EvpPkey) (hdr body : Bytes) :
    Traced Event (ClientCtx × Except EstError Buffers) :=
  if hdr = [] then pure (ctx, .error .httpCannotBuildHeader)
  else do
    let request ← ofOption (buildRequest hdr body)
    let ctx := { ctx with lastHttpStatus := 0 }
    emit (.sent ⟨ctx, op, auth, csr, privKey, request, x⟩)
    if x.wrote then ofOption (estIoGetResponseInternal ctx op x.reads)
    else pure (ctx, .error .sslWrite)

end Writing

section Answers

/-- The bytes of the answer. -/
def Exchange.raw (x : Exchange) : Bytes :=
  match estIoReadRaw [] x.reads with
  | .error _ => []
  | .ok raw => raw

def Sent.raw (t : Sent) : Bytes := t.exchange.raw

def Sent.status (t : Sent) : Int := estIoParseResponseStatusCode t.raw

def answerHeaders (op : EstOperation) (raw : Bytes) : List HttpHeader :=
  if op = .serverKeygen then
    ((parseAndSplitKeygenRsp (cString raw)).map Prod.fst).getD []
  else (parseHttpHeaders (cString raw)).1

def Sent.headers (t : Sent) : List HttpHeader := answerHeaders t.op t.raw

/-- What the client makes of the answer, and the context then. -/
def Sent.answer (t : Sent) : Option (ClientCtx × Except EstError Buffers) :=
  if t.exchange.wrote then estIoGetResponseInternal t.ctx t.op t.exchange.reads
  else some (t.ctx, .error .sslWrite)

end Answers

end LibEst.Client.Request
