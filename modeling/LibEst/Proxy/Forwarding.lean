import LibEst.Proxy.ClientTable
import LibEst.Client.Api
import LibEst.Client.Answer
import LibEst.Server.Enroll

/-! Enrollments and key generations that a proxy passes upstream. Every thread has
its own client context in the table of the proxy; the path segment of a request is
put into that context before the request is sent, and stays there afterwards. -/
namespace LibEst.Proxy.Forwarding

open LibEst.Basic LibEst.OpenSsl LibEst.Lib.ByteString LibEst.Lib.Machine LibEst.Lib.Trace
open LibEst.Server.AuthHeader LibEst.Server.Context LibEst.Server.EnrollAuth LibEst.Server.Enroll
open LibEst.Server.TlsUid
open LibEst.Client.Context LibEst.Client.AuthHeader LibEst.Client.Http LibEst.Client.Request
open LibEst.Client.Answer LibEst.Client.Enroll LibEst.Client.Api
open LibEst.Proxy.ClientTable

/-- The context of a proxy: the side of a server towards the clients, and what its
own client contexts are made from. -/
structure ProxyCtx where
  server : EstCtx
  caChainRaw : Bytes
  userid : Bytes
  password : Bytes
  serverCert : Option X509
  serverPrivKey : Option EvpPkey
  authCredentialsCb : Option (AuthMode → AppCredentials)
  estServer : Bytes
  estPortNum : Int
  readTimeout : Int
  uriPathSegment : Option Bytes
  retryAfterDelay : Nat

/-- A proxy with the table of its threads and the client contexts, by number. -/
structure ProxyState where
  ctx : ProxyCtx
  process : Process
  clients : Nat → Option ClientCtx

/-- A request from downstream: its handler, and what the upstream server does. The
path segment has passed `est_parse_uri`, which bounds it. -/
structure Downstream where
  request : EnrollRequest
  conn : MgConnection
  enrollReq : EnrollReqType
  net : Network
  pathSeg_short : ∀ segment, request.pathSeg = some segment →
    segment.length ≤ estMaxPathSegmentLen

variable (P : Platform) (env : ClientEnv)

section Clients

def estSslReadTimeoutMin : Int := 1
def estSslReadTimeoutMax : Int := 3600

/-- The preparation of a client context in `get_client_ctx`. -/
def prepareClient (p : ProxyCtx) : Setup × Option ClientCtx :=
  match estClientInit env p.caChainRaw with
  | none => (.noContext, none)
  | some client =>
      match estClientSetAuth env client (some p.userid) (some p.password) p.serverCert
        p.serverPrivKey with
      | (client, .none) =>
          let client := { client with authCredentialsCb := p.authCredentialsCb }
          match estClientSetServer env client (some p.estServer) p.estPortNum none with
          | (client, .none) =>
              if p.readTimeout < estSslReadTimeoutMin ∨ estSslReadTimeoutMax < p.readTimeout then
                (.refused, none)
              else (.ready, some client)
          | _ => (.refused, none)
      | _ => (.refused, none)

/-- The client context of a thread, which is null where none can be made. -/
def clientFor (p : ProxyState) (thread : Thread P) : Option (ProxyState × Option (Nat × ClientCtx)) := do
  let array ← p.process.array 0
  let (setup, fresh) := prepareClient env p.ctx
  let (process, id) ← getClientCtx P p.process 0 array thread.id setup
  let clients :=
    if process.created = p.process.created then p.clients
    else Function.update p.clients p.process.created fresh
  let p := { p with process := process, clients := clients }
  match id with
  | none => pure (p, none)
  | some id => (clients id).map fun client => (p, some (id, client))

end Clients

section Segments

/-- `est_store_path_segment` with a length that is not beyond the end of the text. -/
def estStorePathSegment (segment : Bytes) (length : Nat) : Option Bytes := some (segment.take length)

def estProxySetPathSegment (client : ClientCtx) (segment : Bytes) : ClientCtx :=
  { client with
    uriPathSegment := estStorePathSegment segment (min segment.length estMaxPathSegmentLen) }

def estProxyStorePathSegment (p : ProxyCtx) (segment : Option Bytes) : ProxyCtx × EstError :=
  match segment with
  | none => (p, .none)
  | some segment =>
      if segment = [] ∨ estMaxPathSegmentLen < segment.length then (p, .httpInvalidPathSegment)
      else if env.parsePathSeg segment ≠ .none then (p, .httpInvalidPathSegment)
      else ({ p with uriPathSegment := estStorePathSegment segment segment.length }, .none)

end Segments

section Sending

/-- `est_client_send_enroll_request` and `est_client_send_keygen_request` with the
text of the request as it came from downstream. -/
def estClientSendEnrollRequest (x : Exchange) (client : ClientCtx) (pkcs10 : Bytes)
    (op : EstOperation) : Traced Event (ClientCtx × Except EstError (Bytes × Option Bytes)) := do
  let hdr ← ofOption (enrollHeader env x client op pkcs10.length)
  let (client, answer) ← exchange x client op
    (authLine (authEnv env x) client (resourceUri (enrollResource op))) none none hdr pkcs10
  pure (client, answer.bind (enrollBuffers op))

/-- Connects and sends. -/
def estProxySendRequest (x : Exchange) (client : ClientCtx) (pkcs10 : Bytes) (op : EstOperation) :
    Traced Event (ClientCtx × Except EstError (Bytes × Option Bytes)) :=
  match x.connect with
  | .error failure => pure (client, .error failure.toError)
  | .ok _ => estClientSendEnrollRequest env x client pkcs10 op

/-- What sends the loop around once more: a challenge, where the proxy itself asks
for credentials. -/
def triesAgain (mode : AuthMode) (client : ClientCtx)
    (answer : Except EstError (Bytes × Option Bytes)) : Bool :=
  match answer with
  | .error rv => rv = .authFail ∧ hasAuthenticated mode ∧ client.authMode ≠ .fail
  | .ok _ => false

/-- The loop of both handlers, from attempt `i` on. -/
def tryAgain (mode : AuthMode) (net : Network) (pkcs10 : Bytes) (op : EstOperation) :
    Nat → Nat → ClientCtx → Traced Event (ClientCtx × Except EstError (Bytes × Option Bytes))
  | 0, _, _ => ⟨[], none⟩
  | fuel + 1, i, client => do
      let (client, answer) ← estProxySendRequest env (net i) client pkcs10 op
      if triesAgain mode client answer then tryAgain mode net pkcs10 op fuel (i + 1) client
      else pure (client, answer)

/-- How an upstream failure is passed on. -/
def passOn : EstError → EstError
  | .ipGetaddr | .ipConnect | .sslRead => .ipConnect
  | .sslConnect | .fqdnMismatch | .sslWrite | .zeroLengthBuf | .multipartParse | .unknown
  | .bufExceedsMaxLen | .httpUnsupported => .httpUnsupported
  | .httpBadReq => .httpBadReq
  | .httpNoContent => .httpNoContent
  | .httpNotFound => .httpNotFound
  | .httpLocked => .httpLocked
  | .caEnrollRetry => .caEnrollRetry
  | .authFail => .authFail
  | _ => .unknown

end Sending

section Handlers

def operation : EnrollReqType → EstOperation
  | .simpleEnroll => .simpleEnroll
  | .reenroll => .simpleReenroll
  | .serverKeygen => .serverKeygen

/-- The code that both handlers come to before they ask for a client context. Unlike
the server, the proxy compares the content type with its terminating zero, and does
not look for a registration authority. -/
def admission (ctx : EstCtx) (d : Downstream) : Option EstError :=
  if ctx.transportMode = .http ∧ d.request.contentType ≠ ascii "application/pkcs10" then
    some .badContentType
  else
    (admitted env.crypto ctx d.conn d.request d.enrollReq fun auth csr =>
      if estServerCheckCsr env.crypto csr ≠ 0 then some (refuse .badPkcs10 (some auth) auth.conn)
      else
        (estTlsUidAuth ctx d.request.ssl csr).map fun pop =>
          refuse (if pop = .none then .none else .authFailTlsuid) (some auth) auth.conn).map
        Outcome.rc

/-- What a handler returns, with the certificate and the key it passes back. -/
structure Returned where
  rv : EstError
  cert : Option Bytes
  key : Option Bytes
  deriving DecidableEq

def replyWith (rv : EstError) : Returned := ⟨rv, none, none⟩

def reply (ctx : EstCtx) (writes : Bool) : Except EstError (Bytes × Option Bytes) → Returned
  | .error rv => replyWith (passOn rv)
  | .ok (cert, key) => ⟨if ctx.transportMode = .http ∧ ¬ writes then .httpWrite else .none, cert, key⟩

/-- The segment of the request, or else the one of the proxy, goes into the context;
where there is neither, the context stays as it is. -/
def withSegment (p : ProxyCtx) (d : Downstream) (client : ClientCtx) : ClientCtx :=
  match d.request.pathSeg.or p.uriPathSegment with
  | none => client
  | some segment => estProxySetPathSegment client segment

/-- `est_proxy_handle_simple_enroll` and `est_proxy_handle_server_keygen`. -/
def estProxyHandle (p : ProxyState) (thread : Thread P) (d : Downstream) :
    Traced Event (ProxyState × Returned) := do
  let rc ← ofOption (admission env p.ctx.server d)
  if rc ≠ .none then pure (p, replyWith rc)
  else
    let (p, found) ← ofOption (clientFor P env p thread)
    match found with
    | none => pure (p, replyWith .noCtx)
    | some (id, client) =>
        let (client, answer) ← tryAgain env p.ctx.server.authMode d.net d.request.body
          (operation d.enrollReq) 2 0 (withSegment p.ctx d client)
        let p := { p with
          ctx := { p.ctx with retryAfterDelay := client.retryAfterDelay }
          clients := Function.update p.clients id (some { client with authMode := .none }) }
        pure (p, reply p.ctx.server d.request.writes answer)

end Handlers

section Runs

inductive Input where
  | storePathSegment (segment : Option Bytes)
  | request (thread : Thread P) (d : Downstream)

/-- A request that went upstream, the request that caused it and the segment that
the proxy was configured with at that time. -/
structure Forwarded where
  cause : Downstream
  configured : Option Bytes
  event : Event

/-- One input. A null state is behind undefined behaviour; what was sent before it
stays sent. -/
def step : Option ProxyState → Input P → Option (Option ProxyState × List Forwarded)
  | none, _ => some (none, [])
  | some p, .storePathSegment segment =>
      some (some { p with ctx := (estProxyStorePathSegment env p.ctx segment).1 }, [])
  | some p, .request thread d =>
      let handled := estProxyHandle P env p thread d
      some (handled.value.map Prod.fst,
        handled.events.map fun event => ⟨d, p.ctx.uriPathSegment, event⟩)

/-- A proxy as `est_proxy_init` leaves it, the only one of the process. -/
def freshProxy (ctx : ProxyCtx) : ProxyState where
  ctx := { ctx with uriPathSegment := none }
  process := estProxyInit start
  clients _ := none

end Runs

end LibEst.Proxy.Forwarding
