import LibEst.Client.Enroll
import LibEst.Client.Jsmn

/-! The voucher request of a pledge. The library itself answers a challenge with a
second request, and a server that asks for time with one more round, after a pause of
a minute at most. -/
namespace LibEst.Client.Voucher

open LibEst.Basic LibEst.OpenSsl LibEst.Lib.ByteString LibEst.Lib.Trace
open LibEst.Server.AuthHeader LibEst.Server.AuthDigest
open LibEst.Client.Context LibEst.Client.AuthHeader LibEst.Client.Http LibEst.Client.Request
open LibEst.Client.Jsmn

def estBrskiMaxSerNumLen : Nat := 64
def estBrskiMaxVoucherReqLen : Nat := 16384
def estBrskiMaxCacertLen : Nat := 8192
def estBrskiVoucherReqNonceSize : Nat := 32
def estBrskiClientRetryMax : Nat := 60

def nidSerialNumber : Nid := 105

/-- The libraries behind a pledge: what OpenSSL makes of a CMS structure, and the text
of a certificate in a structure of its own, null where that cannot be written. -/
structure PledgeEnv extends ClientEnv where
  isPkcs7 : Bytes → Bool
  /-- From the certificates in the trust store and the structure. -/
  pkcs7Verify : Bytes → Bytes → Bool
  pkcs7Content : Bytes → Bytes
  certsPkcs7 : X509 → Option Bytes

/-- A voucher in the context. One that has been verified is a part of another block
of memory, and must not be freed. -/
structure HeldVoucher where
  text : Bytes
  freeable : Bool
  deriving DecidableEq

/-- The context of a client with its BRSKI part. -/
structure Pledge where
  client : ClientCtx
  brskiMode : Bool
  clientCert : Option X509
  clientCertSerNum : Option Bytes
  brskiRetrievedVoucher : Option HeldVoucher
  brskiRetrievedCacert : Option Bytes

/-- What the network and the machine do in one round: the random bytes of the nonce,
the text of the time, and two exchanges. -/
structure Round where
  nonce : Option Bytes
  time : Option Bytes
  first : Exchange
  second : Exchange
  nonce_length : ∀ bytes, nonce = some bytes →
    2 * bytes.length = estBrskiVoucherReqNonceSize

variable (env : PledgeEnv)

section Parsing

/-- The data of the structure takes the place of the structure. -/
def verifyVoucher (p : Pledge) (voucher : Bytes) : Pledge × EstError :=
  if ¬ env.isPkcs7 voucher then (p, .loadCacerts)
  else if ¬ env.pkcs7Verify p.client.trustedCerts voucher then (p, .clientBrskiVoucherVerifyFailed)
  else ({ p with brskiRetrievedVoucher := some ⟨env.pkcs7Content voucher, false⟩ }, .none)

/-- The array of tokens in `brski_parse_voucher`. -/
def tokcount : Nat := 100

def jsoneq (json : Bytes) (tok : JsmnTok) (s : Bytes) : Bool :=
  tok.type = .string ∧ tokenText json tok = s

/-- The text of the token behind the first one with the name, wherever that stands;
the first of all tokens is passed over. The outer null is a read behind the end of the
array, the inner one a name that is not there. -/
def retrieveTokenFromVoucher (voucher : Bytes) (maxSize : Nat) (tokens : List JsmnTok)
    (name : Bytes) : Option (Option Bytes) :=
  match tokens.tail.dropWhile fun tok => ¬ jsoneq voucher tok name with
  | [] => some none
  | [_] => if tokens.length < tokcount then some (some []) else none
  | _ :: value :: _ => some (some (snprintf maxSize (tokenText voucher value)))

/-- A nonce that is there must be the one that was sent. A shorter one differs from it
at its terminating zero. -/
def checkNonce (sentNonce : Bytes) : Option Bytes → EstError
  | none => .none
  | some nonce =>
      if estBrskiVoucherReqNonceSize < nonce.length then .clientBrskiNonceTooLarge
      else if nonce ≠ sentNonce then .clientBrskiNonceMismatch
      else .none

def checkSerNum (own : Option Bytes) : Option Bytes → EstError
  | none => .clientBrskiSerialNumMissing
  | some serNum =>
      if estBrskiMaxSerNumLen < serNum.length then .clientBrskiSerialNumTooLarge
      else
        match own with
        | none => .syscall
        | some own => if serNum ≠ own then .clientBrskiSerialNumMismatch else .none

/-- What a call leaves behind: its code, and the length that it writes, null where it
writes none. -/
structure Got where
  rv : EstError
  cacertLen : Option Nat
  deriving DecidableEq, Repr

def refusedWith (rv : EstError) : Got := ⟨rv, none⟩

/-- The certificate is in the context before it is checked. -/
def storeCacert (p : Pledge) (cacert : Bytes) : Pledge × EstError :=
  match env.verifyCacertResp cacert with
  | .error rv => ({ p with brskiRetrievedCacert := none }, rv)
  | .ok certs => ({ p with brskiRetrievedCacert := some certs }, .none)

/-- The checks behind the signature. Undefined where the certificate fills its buffer,
which has no room for the terminating zero then. -/
def parseTokens (p : Pledge) (sentNonce voucher : Bytes) (tokens : List JsmnTok) :
    Option (Pledge × EstError) := do
  let nonce ← retrieveTokenFromVoucher voucher (estBrskiVoucherReqNonceSize + 2) tokens
    (ascii "nonce")
  if checkNonce sentNonce nonce ≠ .none then pure (p, checkNonce sentNonce nonce)
  else
    let serNum ← retrieveTokenFromVoucher voucher (estBrskiMaxSerNumLen + 2) tokens
      (ascii "serial-number")
    if checkSerNum p.clientCertSerNum serNum ≠ .none then
      pure (p, checkSerNum p.clientCertSerNum serNum)
    else
      match ← retrieveTokenFromVoucher voucher (estBrskiMaxCacertLen + 1) tokens
        (ascii "pinned-domain-cert") with
      | none => pure (p, .noCert)
      | some cacert =>
          if estBrskiMaxCacertLen ≤ cacert.length then none else pure (storeCacert env p cacert)

/-- The length is set at the beginning, and not again. -/
def brskiParseVoucher (p : Pledge) (sentNonce : Bytes) : Option (Pledge × Got) :=
  let cacertLen := some 0
  match p.brskiRetrievedVoucher with
  | none => none
  | some voucher =>
      match verifyVoucher env p voucher.text with
      | (p, .none) =>
          let content := env.pkcs7Content voucher.text
          match jsmnParse tokcount content with
          | .error _ => some (p, ⟨.malloc, cacertLen⟩)
          | .ok tokens =>
              (parseTokens env p sentNonce content tokens).map fun (p, rv) => (p, ⟨rv, cacertLen⟩)
      | (p, rv) => some (p, ⟨rv, cacertLen⟩)

end Parsing

section Sending

def estBrskiGetVoucher : Bytes := ascii "requestvoucher"

def voucherContentType (signVoucher : Bool) : Bytes :=
  if signVoucher then ascii "application/pkcs7-mime; smime-type=voucher-request"
  else ascii "application/json"

def estClientBrskiBuildVoucherreqHeader (x : Exchange) (ctx : ClientCtx) (signVoucher : Bool)
    (reqBufLen : Nat) : Option Bytes :=
  estClientAddAuthHdr (authEnv env.toClientEnv x) ctx
    (snprintf estHttpReqTotalLen
      (requestLines env.toClientEnv ctx (ascii "POST") estBrskiGetVoucher ++
        ascii "Content-Type: " ++ voucherContentType signVoucher ++ crlf ++
        ascii "Content-Length: " ++ decimal reqBufLen ++ crlf))
    (resourceUri estBrskiGetVoucher)

/-- Undefined where the voucher that is there already cannot be freed. -/
def storeVoucher (p : Pledge) (voucher : Bytes) : Option (Pledge × EstError) :=
  if voucher = [] then some (p, .zeroLengthBuf)
  else if estCaMax < voucher.length + 1 then some (p, .bufExceedsMaxLen)
  else if p.brskiRetrievedVoucher.any fun old => ¬ old.freeable then none
  else some ({ p with brskiRetrievedVoucher := some ⟨voucher, true⟩ }, .none)

/-- A header that has been wiped is not noticed here; the request goes out without it. -/
def estClientBrskiSendVoucherRequest (x : Exchange) (p : Pledge) (signVoucher : Bool)
    (reqBuf : Bytes) : Traced Event (Pledge × EstError) := do
  let hdr ← ofOption (estClientBrskiBuildVoucherreqHeader env x p.client signVoucher reqBuf.length)
  let text ← ofOption (addLineEnd hdr)
  if estHttpReqDataMax < reqBuf.length then pure (p, .syscall)
  else
    let request ← ofOption (addLineEnd (text ++ reqBuf))
    let auth := authLine (authEnv env.toClientEnv x) p.client (resourceUri estBrskiGetVoucher)
    let sent : Sent :=
      ⟨{ p.client with lastHttpStatus := 0 }, .brskiReqVoucher, auth, none, none, request, x⟩
    emit (.sent sent)
    let (client, answer) ← ofOption sent.answer
    let p := { p with client := client }
    match answer with
    | .error rv => pure (p, rv)
    | .ok buffers => ofOption (storeVoucher p (buffers.cert.getD []))

end Sending

section Requests

/-- The certificate of the server goes over what the buffer has from an earlier
connection; one that does not fit leaves the buffer as it is. -/
def estBrskiGetServerCert (serverCert : Bytes) (ssl : Ssl) : Except EstError Bytes :=
  match ssl.peerCert with
  | none => .error .loadCacerts
  | some cert =>
      match env.certsPkcs7 cert with
      | none => .error .loadCacerts
      | some text =>
          if estBrskiMaxCacertLen < text.length then .ok serverCert
          else .ok (text ++ serverCert.drop text.length)

def estBrskiBuildVoucherReq (nonceStr timeStr assertion serverCert : Bytes) : Bytes :=
  snprintf estBrskiMaxVoucherReqLen
    (ascii "\x7b\r\n\"ietf-voucher-request:voucher\": \x7b\r\n\"nonce\": \"" ++ nonceStr ++
      ascii "\",\r\n\"created-on\": \"" ++ timeStr ++
      ascii "\",\r\n\"assertion\": \"" ++ assertion ++
      ascii "\",\r\n\"proximity-registrar-cert\": \"" ++ serverCert ++
      ascii "\"\r\n\x7d\x7d")

def assertion : Bytes := ascii "proximity"

/-- The answer is read, and the mode of a challenge is forgotten. -/
def finishRound (p : Pledge) (nonceStr : Bytes) (rv : EstError) : Option (Pledge × Got) :=
  (if rv = .none then brskiParseVoucher env p nonceStr else some (p, refusedWith rv)).map
    fun (p, got) => ({ p with client := { p.client with authMode := .none } }, got)

/-- What follows a first request: one more where it met a challenge. -/
def secondRequest (r : Round) (p : Pledge) (signVoucher : Bool)
    (nonceStr timeStr serverCert : Bytes) (rv : EstError) : Traced Event (Pledge × Got) :=
  if rv = .authFail ∧ hasAuthenticated p.client.authMode then
    if p.client.authMode = .digest ∧ env.fipsMode then pure (p, refusedWith .badMode)
    else
      match r.second.connect with
      | .error failure => pure (p, refusedWith failure.toError)
      | .ok ssl =>
          match estBrskiGetServerCert env serverCert ssl with
          | .error rv => pure (p, refusedWith rv)
          | .ok serverCert => do
              let (p, rv) ← estClientBrskiSendVoucherRequest env r.second p signVoucher
                (estBrskiBuildVoucherReq nonceStr timeStr assertion serverCert)
              ofOption (finishRound env p nonceStr rv)
  else ofOption (finishRound env p nonceStr rv)

def estClientBrskiSendGetVoucher (r : Round) (p : Pledge) (signVoucher : Bool) :
    Traced Event (Pledge × Got) :=
  match r.first.connect with
  | .error failure => pure (p, refusedWith failure.toError)
  | .ok ssl =>
      match r.nonce, r.time with
      | some nonce, some timeStr =>
          match estBrskiGetServerCert env [] ssl with
          | .error rv => pure (p, refusedWith rv)
          | .ok serverCert => do
              let (p, rv) ← estClientBrskiSendVoucherRequest env r.first p signVoucher
                (estBrskiBuildVoucherReq (estHexToStr nonce) timeStr assertion serverCert)
              secondRequest env r p signVoucher (estHexToStr nonce) timeStr serverCert rv
      | _, _ => pure (p, refusedWith .syscall)

def estFindSerNumInSubj (cert : X509) : Option Bytes :=
  (cert.subject.find? fun entry => entry.nid = nidSerialNumber).map fun entry => cString entry.data

/-- The pause that a server asks for, cut to a minute. -/
def actualRetryDelay (ctx : ClientCtx) : Nat :=
  if estBrskiClientRetryMax < ctx.retryAfterDelay then estBrskiClientRetryMax
  else ctx.retryAfterDelay

/-- One round, and one more where the server has asked for time. -/
def voucherRounds (first second : Round) (p : Pledge) (signVoucher : Bool) :
    Traced Event (Pledge × Got) := do
  let (p, got) ← estClientBrskiSendGetVoucher env first p signVoucher
  if got.rv = .caEnrollRetry then
    emit (.slept (actualRetryDelay p.client))
    let (p, again) ← estClientBrskiSendGetVoucher env second p signVoucher
    pure (p, ⟨again.rv, again.cacertLen.or got.cacertLen⟩)
  else pure (p, got)

/-- The length is asked for with a pointer that may be null. -/
def estClientBrskiGetVoucher (first second : Round) (p : Pledge) (hasCacertLen signVoucher : Bool) :
    Traced Event (Pledge × Got) :=
  if ¬ p.client.estClientInitialized then pure (p, refusedWith .clientNotInitialized)
  else if ¬ p.brskiMode then pure (p, refusedWith .invalidParameters)
  else if ¬ hasCacertLen then pure (p, refusedWith .invalidParameters)
  else
    match p.clientCert with
    | none => pure (p, refusedWith .noCert)
    | some cert =>
        match estFindSerNumInSubj cert with
        | none => pure (p, refusedWith .clientBrskiSerialNumMissing)
        | some serNum =>
            if estBrskiMaxSerNumLen < serNum.length then
              pure (p, refusedWith .clientBrskiSerialNumTooLarge)
            else
              voucherRounds env first second { p with clientCertSerNum := some serNum } signVoucher

end Requests

end LibEst.Client.Voucher
