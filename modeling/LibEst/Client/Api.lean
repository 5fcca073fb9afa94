import LibEst.Lib.Machine
import LibEst.Client.Enroll

/-! The interface of the client over one context: what an application may call, in
any order, against servers that answer as they like. -/
namespace LibEst.Client.Api

open LibEst.Basic LibEst.OpenSsl LibEst.Lib.ByteString LibEst.Lib.Machine LibEst.Lib.Trace
open LibEst.SafeStr
open LibEst.Server.AuthHeader LibEst.Server.CsrAttrs
open LibEst.Client.Context LibEst.Client.AuthHeader LibEst.Client.Http LibEst.Client.Request
open LibEst.Client.Enroll

def estMaxServernameLen : Nat := 255
def estMaxPathSegmentLen : Nat := 128

variable (env : ClientEnv)

section Settings

/-- The default digest is SHA-256. -/
def sha256 : Digest := ⟨672⟩

/-- A new context, null where the certificates cannot be loaded. -/
def estClientInit (caChain : Bytes) : Option ClientCtx :=
  if env.loadTrustedCerts caChain ≠ .none then none
  else some {
    estServer := []
    estPortNum := 0
    uriPathSegment := none
    authCredentialsCb := none
    userid := []
    password := []
    authMode := .none
    realm := []
    sNonce := []
    estClientInitialized := true
    signingDigest := sha256
    lastHttpStatus := 0
    retryAfterDelay := 0
    retrievedCaCerts := none
    retrievedCsrattrs := none
    csrPopRequired := false
    clientForcePop := false
    enrolledClientCert := none
    serverGenClientPrivKey := none
    trustedCerts := caChain }

/-- Both or none. The user name stays where the password is too long. -/
def estClientSetUidPw (ctx : ClientCtx) (uid pwd : Option Bytes) : ClientCtx × EstError :=
  match uid, pwd with
  | some _, none => (ctx, .invalidParameters)
  | none, some _ => (ctx, .invalidParameters)
  | none, none => (ctx, .none)
  | some uid, some pwd =>
      if maxUidpwd < uid.length then (ctx, .invalidParameters)
      else
        let ctx := { ctx with userid := strcpyS maxUidpwd uid [] }
        if maxUidpwd < pwd.length then (ctx, .invalidParameters)
        else ({ ctx with password := strcpyS maxUidpwd pwd [] }, .none)

def estClientSetAuth (ctx : ClientCtx) (uid pwd : Option Bytes) (clientCert : Option X509)
    (privateKey : Option EvpPkey) : ClientCtx × EstError :=
  match estClientSetUidPw ctx uid pwd with
  | (ctx, .none) =>
      let ctx := { ctx with authMode := .none }
      match clientCert, privateKey with
      | some cert, some key => (ctx, if env.setCertAndKey cert key then .none else .clientInvalidKey)
      | _, _ => (ctx, .none)
  | (ctx, rv) => (ctx, rv)

/-- The server is in place before the path segment is looked at. -/
def estClientSetServer (ctx : ClientCtx) (server : Option Bytes) (port : Int)
    (pathSegment : Option Bytes) : ClientCtx × EstError :=
  if ¬ ctx.estClientInitialized then (ctx, .clientNotInitialized)
  else
    match server with
    | none => (ctx, .invalidServerName)
    | some server =>
        if port ≤ 0 ∨ 65535 < port then (ctx, .invalidPortNum)
        else if estMaxServernameLen < server.length then (ctx, .invalidServerName)
        else
          let ctx := { ctx with
            estServer := strcpyS estMaxServernameLen server []
            estPortNum := port.toNat }
          match pathSegment with
          | none => (ctx, .none)
          | some segment =>
              if segment = [] ∨ estMaxPathSegmentLen < segment.length then
                (ctx, .httpInvalidPathSegment)
              else if env.parsePathSeg segment ≠ .none then (ctx, env.parsePathSeg segment)
              else ({ ctx with uriPathSegment := some segment }, .none)

end Settings

section Certificates

/-- The authorities of the server, verified once they are in the context. The
length is the one that is passed back. -/
def storeCacerts (ctx : ClientCtx) (certs : Option Bytes) : ClientCtx × EstError × Option Nat :=
  let certs := certs.getD []
  if certs.length = 0 then (ctx, .zeroLengthBuf, none)
  else if estCaMax < certs.length + 1 then (ctx, .bufExceedsMaxLen, none)
  else
    match env.verifyCacertResp certs with
    | .error rv => ({ ctx with retrievedCaCerts := none }, rv, some 0)
    | .ok certs => ({ ctx with retrievedCaCerts := some certs }, .none, some certs.length)

def estClientSendCacertsRequest (x : Exchange) (ctx : ClientCtx) :
    Traced Event (ClientCtx × EstError × Option Nat) := do
  let hdr := estClientBuildCacertsHeader env ctx
  let (ctx, answer) ← exchange x ctx .cacerts .absent none none hdr []
  match answer with
  | .error rv => pure (ctx, rv, none)
  | .ok buffers => pure (storeCacerts env ctx buffers.cert)

def estClientGetCacerts (net : Network) (ctx : ClientCtx) :
    Traced Event (ClientCtx × EstError × Option Nat) :=
  if ¬ ctx.estClientInitialized then pure (ctx, .clientNotInitialized, none)
  else
    match (net 0).connect with
    | .error failure => pure (ctx, failure.toError, none)
    | .ok _ => estClientSendCacertsRequest env (net 0) ctx

/-- The client has to be reset once the certificates have been handed out. -/
def estClientCopyCacerts (ctx : ClientCtx) : Traced Event (ClientCtx × Except EstError Bytes) :=
  if ¬ ctx.estClientInitialized then pure (ctx, .error .clientNotInitialized)
  else
    match ctx.retrievedCaCerts with
    | none => pure (ctx, .error .noCertificate)
    | some certs => do
        emit .copiedCacerts
        pure ({ ctx with estClientInitialized := false }, .ok certs)

end Certificates

section Attributes

def estClientSendCsrattrsRequest (x : Exchange) (ctx : ClientCtx) :
    Traced Event (ClientCtx × Except EstError (Option Bytes)) := do
  let hdr ← ofOption (estClientBuildCsrHeader env x ctx)
  let auth := authLine (authEnv env x) ctx (resourceUri estGetCsrattrs)
  let (ctx, answer) ← exchange x ctx .csrattrs auth none none hdr []
  pure (ctx, answer.map Buffers.cert)

/-- A text is kept where it is valid; what it says of the challenge password is
kept in any case. -/
def storeCsrattrs (ctx : ClientCtx) (text : Bytes) : ClientCtx × Except EstError (Option Bytes) :=
  let (rv, pop) := estAsn1ParseAttributes env.crypto env.asn1 text text.length
  if rv = .none then
    ({ ctx with retrievedCsrattrs := some text, csrPopRequired := pop }, .ok (some text))
  else ({ ctx with retrievedCsrattrs := none, csrPopRequired := pop }, .error rv)

/-- This call does not look at whether the client is initialized. -/
def estClientGetCsrattrs (net : Network) (ctx : ClientCtx) :
    Traced Event (ClientCtx × Except EstError (Option Bytes)) :=
  match (net 0).connect with
  | .error failure => pure (ctx, .error failure.toError)
  | .ok _ => do
      let (ctx, answer) ←
        estClientSendCsrattrsRequest env (net 0) { ctx with retrievedCsrattrs := none }
      match answer with
      | .error rv => pure (ctx, .error rv)
      | .ok none => pure (ctx, .ok none)
      | .ok (some text) => pure (storeCsrattrs env ctx text)

end Attributes

section Provisioning

/-- What the call returns and the two lengths that it passes back. -/
structure Provisioned where
  rv : EstError
  pkcs7Len : Option Nat
  caCertLen : Option Nat

/-- The new authorities become the trust anchors. -/
def reloadTrust (ctx : ClientCtx) (certs : Bytes) : Traced Event (ClientCtx × EstError) :=
  match env.convertP7b64ToPem certs with
  | none => pure (ctx, .pemRead)
  | some pem =>
      if env.loadTrustedCerts pem ≠ .none then pure (ctx, env.loadTrustedCerts pem)
      else do
        emit .reloadedTrust
        pure ({ ctx with trustedCerts := pem, estClientInitialized := true }, .none)

/-- The code of an answer about attributes. -/
def attrsCode (answer : Except EstError (Option Bytes)) : EstError :=
  match answer with
  | .error rv => rv
  | .ok _ => .none

/-- The exchanges from the second one on. -/
def later (net : Network) : Network := fun n => net (n + 1)

theorem later_apply (net : Network) (n : Nat) : later net n = net (n + 1) := rfl

/-- The attributes and then the certificate. -/
def provisionEnroll (net : Network) (ctx : ClientCtx) (cn : Bytes) (newPublicKey : Option EvpPkey)
    (caCertLen : Option Nat) : Traced Event (ClientCtx × Provisioned) := do
  let (ctx, answer) ← estClientGetCsrattrs env net ctx
  let rv := attrsCode answer
  if rv ≠ .none ∧ rv ≠ .httpNoContent then pure (ctx, ⟨rv, none, caCertLen⟩)
  else
    let (ctx, enrolled) ← estClientEnroll env (later net) ctx cn newPublicKey
    pure (ctx, ⟨enrolled.rv, enrolled.pkcs7Len, caCertLen⟩)

def estClientProvisionCert (net : Network) (ctx : ClientCtx) (cn : Bytes)
    (newPublicKey : Option EvpPkey) : Traced Event (ClientCtx × Provisioned) :=
  if ¬ ctx.estClientInitialized then pure (ctx, ⟨.clientNotInitialized, none, none⟩)
  else if newPublicKey = none then pure (ctx, ⟨.noKey, none, none⟩)
  else do
    let (ctx, rv, caCertLen) ← estClientGetCacerts env net ctx
    if rv ≠ .none then pure (ctx, ⟨rv, none, caCertLen⟩)
    else
      match ← estClientCopyCacerts ctx with
      | (ctx, .error rv) => pure (ctx, ⟨rv, none, caCertLen⟩)
      | (ctx, .ok certs) =>
          let (ctx, rv) ← reloadTrust env ctx certs
          if rv ≠ .none then pure (ctx, ⟨rv, none, caCertLen⟩)
          else provisionEnroll env (later net) ctx cn newPublicKey caCertLen

end Provisioning

section Calls

inductive Call where
  | setAuth (uid pwd : Option Bytes) (clientCert : Option X509) (privateKey : Option EvpPkey)
  | setAuthCredCb (callback : Option (AuthMode → AppCredentials))
  | enableBasicAuthHint
  | setServer (server : Option Bytes) (port : Int) (pathSegment : Option Bytes)
  | forcePop
  | unforcePop
  | getCacerts
  | copyCacerts
  | getCsrattrs
  | enroll (cn : Bytes) (newPublicKey : Option EvpPkey)
  | serverKeygenEnroll (cn : Bytes) (newPublicKey : Option EvpPkey)
  | reenroll (cert : Option X509) (privKey : Option EvpPkey)
  | enrollCsr (csr : Option X509Req) (privKey : Option EvpPkey)
  | serverKeygenEnrollCsr (csr : Option X509Req) (privKey : Option EvpPkey)
  | provisionCert (cn : Bytes) (newPublicKey : Option EvpPkey)
  | copyEnrolledCert
  | copyServerGeneratedKey

/-- The code that a call returns, the lengths it passes back, and the bytes it
hands out. -/
structure Reply where
  rv : EstError
  pkcs7Len : Option Nat
  pkcs8Len : Option Nat
  caCertLen : Option Nat
  data : Option Bytes

def Reply.code (rv : EstError) : Reply := ⟨rv, none, none, none, none⟩

def Reply.enrolled (enrolled : Enrolled) : Reply :=
  ⟨enrolled.rv, enrolled.pkcs7Len, enrolled.pkcs8Len, none, none⟩

def Reply.handedOut (answer : Except EstError (Option Bytes)) : Reply :=
  match answer with
  | .error rv => .code rv
  | .ok data => { Reply.code .none with data := data }

def settings (result : ClientCtx × EstError) : Traced Event (ClientCtx × Reply) :=
  pure (result.1, .code result.2)

def invoke (net : Network) (ctx : ClientCtx) : Call → Traced Event (ClientCtx × Reply)
  | .setAuth uid pwd clientCert privateKey =>
      settings (estClientSetAuth env ctx uid pwd clientCert privateKey)
  | .setAuthCredCb callback => settings ({ ctx with authCredentialsCb := callback }, .none)
  | .enableBasicAuthHint => settings ({ ctx with authMode := .basic }, .none)
  | .setServer server port pathSegment =>
      settings (estClientSetServer env ctx server port pathSegment)
  | .forcePop => settings ({ ctx with clientForcePop := true }, .none)
  | .unforcePop => settings ({ ctx with clientForcePop := false }, .none)
  | .getCacerts => do
      let (ctx, rv, caCertLen) ← estClientGetCacerts env net ctx
      pure (ctx, { Reply.code rv with caCertLen := caCertLen })
  | .copyCacerts => do
      let (ctx, answer) ← estClientCopyCacerts ctx
      pure (ctx, .handedOut (answer.map some))
  | .getCsrattrs => do
      let (ctx, answer) ← estClientGetCsrattrs env net ctx
      pure (ctx, .handedOut answer)
  | .enroll cn newPublicKey => do
      let (ctx, enrolled) ← estClientEnroll env net ctx cn newPublicKey
      pure (ctx, .enrolled enrolled)
  | .serverKeygenEnroll cn newPublicKey => do
      let (ctx, enrolled) ← estClientServerKeygenEnroll env net ctx cn newPublicKey
      pure (ctx, .enrolled enrolled)
  | .reenroll cert privKey => do
      let (ctx, enrolled) ← estClientReenroll env net ctx cert privKey
      pure (ctx, .enrolled enrolled)
  | .enrollCsr csr privKey => do
      let (ctx, enrolled) ← estClientEnrollCsr env net ctx csr privKey
      pure (ctx, .enrolled enrolled)
  | .serverKeygenEnrollCsr csr privKey => do
      let (ctx, enrolled) ← estClientServerKeygenEnrollCsr env net ctx csr privKey
      pure (ctx, .enrolled enrolled)
  | .provisionCert cn newPublicKey => do
      let (ctx, provisioned) ← estClientProvisionCert env net ctx cn newPublicKey
      pure (ctx, { Reply.code provisioned.rv with
        pkcs7Len := provisioned.pkcs7Len
        caCertLen := provisioned.caCertLen })
  | .copyEnrolledCert =>
      let (ctx, answer) := estClientCopyEnrolledCert ctx
      pure (ctx, .handedOut (answer.map some))
  | .copyServerGeneratedKey =>
      let (ctx, answer) := estClientCopyServerGeneratedKey ctx
      pure (ctx, .handedOut (answer.map some))

end Calls

section Machine

/-- The context of a client, null once its behaviour has become undefined. -/
abbrev ClientState := Option ClientCtx

/-- A call and what the network does in it. -/
abbrev Input := Call × Network

structure Output where
  events : List Event
  reply : Option Reply

def step (client : ClientState) (input : Input) : Option (ClientState × Output) :=
  match client with
  | none => some (none, ⟨[], none⟩)
  | some ctx =>
      let result := invoke env input.2 ctx input.1
      some (result.value.map Prod.fst, ⟨result.events, result.value.map Prod.snd⟩)

/-- All that happens in a run, in its order. -/
def allEvents (outs : List Output) : List Event := outs.flatMap Output.events

theorem allEvents_concat (outs : List Output) (out : Output) :
    allEvents (outs ++ [out]) = allEvents outs ++ out.events := by
  unfold allEvents
  rw [List.flatMap_append, List.flatMap_singleton]

/-- A run always has an end. -/
theorem run_exists (client : ClientState) (inputs : List Input) :
    ∃ last outs, run (step env) client inputs = some (last, outs) := by
  have hdefined (s : ClientState) (i : Input) (_ : True) (_ : True) :
      ∃ next out, step env s i = some (next, out) ∧ True := by
    cases s with
    | none => exact ⟨_, _, rfl, trivial⟩
    | some ctx => exact ⟨_, _, rfl, trivial⟩
  exact run_defined hdefined trivial (guarded_true client inputs)

end Machine

end LibEst.Client.Api
