import LibEst.Proxy.Dispatch
import LibEst.Proxy.UpstreamUri
import LibEst.Wire.Handshake

/-! An enrollment through a proxy. What the client downstream has written is decided by the
server upstream, and the client gets from the proxy what it would have got from that server. -/
namespace LibEst.Wire.Relay

open LibEst.Basic LibEst.OpenSsl LibEst.Lib.ByteString LibEst.Lib.Trace LibEst.Asn1
open LibEst.Server.AuthHeader LibEst.Server.Context LibEst.Server.EnrollAuth LibEst.Server.Framing
open LibEst.Server.HttpRequest
open LibEst.Server.Routing hiding estMaxPathSegmentLen
open LibEst.Client.Context LibEst.Client.AuthHeader LibEst.Client.Enroll LibEst.Client.Http
open LibEst.Client.RequestBuffer
open LibEst.Client.Request hiding getHeader
open LibEst.Proxy.ClientTable hiding Reply
open LibEst.Proxy.Forwarding LibEst.Proxy.KeygenResponse
open LibEst.Proxy.Dispatch hiding wrongRequest handleOperation keygenParts
open LibEst.Proxy.UpstreamUri (send_after triesAgain_iff)
open LibEst.Wire.Replies LibEst.Wire.Dispatch LibEst.Wire.Requests LibEst.Wire.EnrollCall
open LibEst.Wire.Handshake

section Attempts

variable {C : Crypto} {A : Asn1Ops} {U : UriParser} {brski : Bool} {S : HttpServer}
  {visits : Nat → Visit} {env : ClientEnv} {x : Exchange} {client client' : ClientCtx}
  {op : EstOperation} {body : Bytes}

/-- The call that a proxy makes for a request. -/
def proxyCall (op : EstOperation) (body : Bytes) : EnrollCall where
  op := op
  body := body
  keyBuffers := true
  memory := true

/-- An attempt gets to the server upstream, and the answer gets back. -/
structure Passed (C : Crypto) (A : Asn1Ops) (U : UriParser) (brski : Bool) (S : HttpServer)
    (visits : Nat → Visit) (env : ClientEnv) (x : Exchange) (client : ClientCtx) (op : EstOperation)
    (body : Bytes) : Prop where
  connected : ∃ ssl, x.connect = .ok ssl
  sendable : Sendable brski env x client (proxyCall op body)
  linked : Linked C A U brski S visits x (requestText env x client (proxyCall op body))

/-- The record of an attempt. -/
def forwardOf (env : ClientEnv) (x : Exchange) (client : ClientCtx) (op : EstOperation) (body : Bytes) :
    Sent where
  ctx := { client with lastHttpStatus := 0 }
  op := op
  auth := sentLine env x client (proxyCall op body)
  csr := none
  privKey := none
  request := requestText env x client (proxyCall op body)
  exchange := x

/-- What the proxy keeps of an answer. -/
def taken (op : EstOperation) (got : ClientCtx × Except EstError Buffers) :
    ClientCtx × Except EstError (Bytes × Option Bytes) :=
  (got.1, got.2.bind (enrollBuffers op))

/-- An attempt sends one request, and keeps what is in the answer. -/
theorem Passed.sends (h : Passed C A U brski S visits env x client op body) :
    estProxySendRequest env x client body op =
      ⟨[.sent (forwardOf env x client op body)],
        (estIoGetResponseInternal { client with lastHttpStatus := 0 } op x.reads).map (taken op)⟩ := by
  obtain ⟨ssl, hconnect⟩ := h.connected
  obtain ⟨hdr, hheader, hne, hbuilt⟩ := sendable_built h.sendable
  have hline : authLine (authEnv env x) client (resourceUri (enrollResource op)) =
      sentLine env x client (proxyCall op body) :=
    (@authLine_spill client (authEnv env x) (resourceUri (enrollResource op))).2 h.sendable.own
  have hsame : enrollHeader env x client op body.length = some hdr := hheader
  have hexchange : exchange x client op (sentLine env x client (proxyCall op body)) none none hdr body =
      ⟨[.sent (forwardOf env x client op body)],
        estIoGetResponseInternal { client with lastHttpStatus := 0 } op x.reads⟩ :=
    exchange_built hne hbuilt h.linked.wrote
  unfold estProxySendRequest estClientSendEnrollRequest
  rw [hconnect, hline, hsame]
  simp only [ofOption, mk_some_bind, List.nil_append, hexchange]
  cases estIoGetResponseInternal { client with lastHttpStatus := 0 } op x.reads <;> rfl

/-- The contexts that the loop of the proxy starts its attempts with. -/
inductive Tried (env : ClientEnv) (mode : AuthMode) (net : Network) (op : EstOperation) (body : Bytes)
    (start : ClientCtx) : Nat → ClientCtx → Prop
  | first : Tried env mode net op body start 0 start
  | again {i : Nat} {client client' : ClientCtx} {answer : Except EstError (Bytes × Option Bytes)}
      (h : Tried env mode net op body start i client)
      (hvalue : (estProxySendRequest env (net i) client body op).value = some (client', answer))
      (hagain : triesAgain mode client' answer = true) : Tried env mode net op body start (i + 1) client'

variable {mode : AuthMode} {net : Network} {start : ClientCtx} {i : Nat}

/-- The segment stays what it was at the start. -/
theorem Tried.segment (h : Tried env mode net op body start i client) :
    client.uriPathSegment = start.uriPathSegment := by
  induction h with
  | first => rfl
  | again _ hvalue _ ih => exact (send_after hvalue).segment.trans ih

/-- With the mode of a challenge, an attempt is the last one. -/
theorem tryAgain_challenged (fuel : Nat) (hmode : hasAuthenticated client.authMode = true) :
    tryAgain env mode net body op (fuel + 1) i client = estProxySendRequest env (net i) client body op := by
  rw [tryAgain]
  cases hvalue : (estProxySendRequest env (net i) client body op).value with
  | none => rw [bind_of_value_none hvalue, ← hvalue]
  | some result =>
    have hlast : ¬ triesAgain mode result.1 result.2 = true := by
      intro hagain
      obtain ⟨hfail, -, hne⟩ := triesAgain_iff.mp hagain
      rw [((send_after hvalue).mode hfail hne).1] at hmode
      cases hmode
    rw [bind_of_value_some hvalue]
    dsimp only
    rw [if_neg hlast, pure_events, pure_value, List.append_nil, ← hvalue]

/-- The attempts of the proxy: so many requests, each of them with the body of the client. -/
structure Attempts (env : ClientEnv) (mode : AuthMode) (net : Network) (op : EstOperation) (body : Bytes)
    (start : ClientCtx) (count : Nat) (events : List Event) : Prop where
  length : events.length = count
  each : ∀ e ∈ events, ∃ i client, Tried env mode net op body start i client ∧
    e = .sent (forwardOf env (net i) client op body)

/-- The loop ends with the result of its last attempt. -/
theorem tryAgain_last {sessions : Nat → Nat → Visit}
    (hpassed : ∀ i client, Tried env mode net op body start i client →
      Passed C A U brski S (sessions i) env (net i) client op body) :
    ∃ i client events, Tried env mode net op body start i client ∧
      Attempts env mode net op body start (i + 1) events ∧
      tryAgain env mode net body op 2 0 start =
        ⟨events, (estProxySendRequest env (net i) client body op).value⟩ := by
  have hfirst := @Tried.first env mode net op body start
  have hsent (i : Nat) (client : ClientCtx) (h : Tried env mode net op body start i client) :
      (estProxySendRequest env (net i) client body op).events =
        [.sent (forwardOf env (net i) client op body)] := by rw [(hpassed i client h).sends]
  have hone : Attempts env mode net op body start 1 [.sent (forwardOf env (net 0) start op body)] := by
    refine ⟨rfl, ?_⟩
    intro e he
    exact ⟨0, start, hfirst, List.mem_singleton.mp he⟩
  rw [tryAgain]
  cases hvalue : (estProxySendRequest env (net 0) start body op).value with
  | none =>
    refine ⟨0, start, _, hfirst, hone, ?_⟩
    rw [bind_of_value_none hvalue, hsent 0 start hfirst, hvalue]
  | some result =>
    obtain ⟨later, answer⟩ := result
    rw [bind_of_value_some hvalue, hsent 0 start hfirst]
    dsimp only
    by_cases hagain : triesAgain mode later answer = true
    · have hsecond := hfirst.again hvalue hagain
      obtain ⟨hfail, -, hne⟩ := triesAgain_iff.mp hagain
      rw [if_pos hagain, tryAgain_challenged 0 ((send_after hvalue).mode hfail hne).2,
        hsent 1 later hsecond]
      refine ⟨1, later, _, hsecond, ⟨rfl, ?_⟩, rfl⟩
      intro e he
      rcases List.mem_cons.mp he with rfl | hlast
      · exact ⟨0, start, hfirst, rfl⟩
      · exact ⟨1, later, hsecond, List.mem_singleton.mp hlast⟩
    · refine ⟨0, start, _, hfirst, hone, ?_⟩
      rw [if_neg hagain, hvalue]
      rfl

end Attempts

section Answers

variable {S : HttpServer} {r : Request} {op : EstOperation} {view : View} {keepAlive : Bool}
  {reader : ClientCtx} {wire : Wire}

/-- An answer that a client can read, with a certificate that the buffer of the proxy takes. -/
def Passable (view : View) : Prop :=
  Legible view ∧ ∀ contentType text, view = .content contentType text → text.length ≤ estMaxClientCertLen

/-- An answer of the server upstream as the client downstream has it. -/
def relayed (keepAlive : Bool) : View → View
  | .content _ text => .content "application/pkcs7-mime; smime-type=certs-only" text
  | .keys key cert => .keys key cert
  | .done => .done
  | .refused _ rc => .refused keepAlive (passOn (seenError (errorText rc).1))
  | .retry delay => .retry delay
  | .challenged _ _ _ => .refused keepAlive .authFail

/-- The text of it, in which the lines around a key and its certificate are the proxy's own. -/
def relayedText (keepAlive : Bool) : View → Bytes
  | .keys key cert => proxyStream key cert
  | view => (relayed keepAlive view).text

/-- An error is passed on as one that a client takes for the same. -/
theorem seenError_passed (status : Nat) :
    seenError (errorText (passOn (seenError status))).1 = seenError status ∧
      passOn (seenError status) ≠ .none ∧ passOn (seenError status) ≠ .authPending ∧
      passOn (seenError status) ≠ .caEnrollRetry := by
  let seen : List EstError :=
    [.httpNoContent, .httpBadReq, .authFail, .httpNotFound, .httpLocked, .unknown]
  have hpassed : ∀ rc ∈ seen, seenError (errorText (passOn rc)).1 = rc ∧ passOn rc ≠ .none ∧
      passOn rc ≠ .authPending ∧ passOn rc ≠ .caEnrollRetry := by decide
  apply hpassed
  unfold seenError
  split <;> decide

/-- The proxy is transparent: result and delay are the ones of the answer from upstream. -/
theorem relayed_same (view : View) :
    ((relayed keepAlive view).received reader).2 = (view.received reader).2 ∧
      ((relayed keepAlive view).received reader).1.retryAfterDelay =
        (view.received reader).1.retryAfterDelay := by
  cases view with
  | content | keys | done | retry => exact ⟨rfl, rfl⟩
  | refused keep rc =>
    refine ⟨?_, rfl⟩
    simp only [relayed, View.received, (seenError_passed _).1]
  | challenged mode realm now =>
    refine ⟨rfl, ?_⟩
    simp only [relayed, View.received]
    split <;> rfl

theorem enrolls_content (hop : Enrolls op) (hne : op ≠ .serverKeygen) :
    answerType op = some "application/pkcs7-mime; smime-type=certs-only" := by
  rcases hop with rfl | rfl | rfl
  · rfl
  · rfl
  · exact absurd rfl hne

theorem relayed_fits (hop : Enrolls op) (h : view.Fits op) : (relayed keepAlive view).Fits op := by
  cases view with
  | content contentType text =>
    obtain ⟨hne, -, -, -, -, -, htext⟩ := h
    obtain ⟨hkeygen, hcontent, hexpected, hline, hfront, hshort⟩ :=
      answerType_expected (enrolls_content hop hne)
    exact ⟨hkeygen, hcontent, hexpected, hline, hfront, hshort, htext⟩
  | keys | done | retry => exact h
  | refused | challenged => trivial

/-- What goes downstream is read there, in whatever pieces it comes. -/
theorem relayed_read (hop : Enrolls op) (h : view.Fits op) (reader : ClientCtx) {chunks : List Bytes}
    (hne : ∀ chunk ∈ chunks, chunk ≠ []) (hchunks : chunks.flatten = relayedText keepAlive view) :
    estIoGetResponseInternal reader op (chunks.map some) =
      some ((relayed keepAlive view).received reader) := by
  cases view with
  | keys key cert =>
    obtain ⟨rfl, hkey, hcert, hkeySymbol, hcertSymbol⟩ := h
    rw [proxyStream_decoded reader hkey hcert hne hchunks, if_neg]
    · rfl
    · rw [← Bool.not_eq_false, ← Bool.not_eq_false, hkey.onlyWhitespace_iff, hcert.onlyWhitespace_iff]
      exact not_or.mpr ⟨not_not.mpr hkeySymbol, not_not.mpr hcertSymbol⟩
  | content | done | refused | retry | challenged =>
    exact view_received (relayed_fits hop h) reader hne hchunks

end Answers

section Writing

variable {S : HttpServer} {r : Request} {op : EstOperation} {view : View} {wire : Wire}

theorem writes_concluded {parts : List Part} (hne : ∀ part ∈ parts, part.text ≠ []) :
    Writes (partsText parts) (fun _ => True) (conclude S r op (.content parts) wire) := by
  unfold conclude
  have hserved : served op .none = true := rfl
  have hsent : Writes (partsText parts) (fun result => result.1 = .none)
      (sendReply S r (.content parts) wire) := by
    refine writes_bind_nil (writes_writeParts hne wire) fun result hresult => ?_
    dsimp only
    rw [if_pos hresult]
    exact writes_pure rfl
  refine writes_bind_nil hsent fun result hresult => ?_
  dsimp only
  rw [hresult, if_pos hserved]
  exact writes_announceEnd

theorem writes_refused {rc : EstError} (hnone : rc ≠ .none) (hpending : rc ≠ .authPending) :
    Writes (errorView S r rc).text (fun _ => True) (conclude S r op (.refused rc) wire) := by
  have hserved : served op rc = false := by simp [served, hnone, hpending]
  have hrun : conclude S r op (.refused rc) wire = giveUp S r rc rc wire := by
    unfold conclude sendReply
    rw [pure_bind]
    dsimp only
    rw [hserved]
    rfl
  rw [hrun]
  exact writes_giveUp rc rc wire

theorem proxyKeygenParts_text (key cert : Bytes) :
    partsText (LibEst.Proxy.Dispatch.keygenParts key cert) = proxyStream key cert := by
  simp [partsText, LibEst.Proxy.Dispatch.keygenParts, proxyStream, estProxyPropagateKeygenRsp, Part.text]

theorem proxyKeygenParts_ne {key cert : Bytes} (hkey : key ≠ []) (hcert : cert ≠ []) :
    ∀ part ∈ LibEst.Proxy.Dispatch.keygenParts key cert, part.text ≠ [] := by
  have hfirst : firstHdr key cert ≠ [] := by simp [firstHdr, decimal_ne_nil]
  have hboundary : certBoundary ≠ [] := List.append_ne_nil_of_right_ne_nil _ ascii_ne_nil
  have htype : certTypeHdr ≠ [] := List.append_ne_nil_of_right_ne_nil _ ascii_ne_nil
  have hfinal : ascii "\r\n--" ++ LibEst.Server.KeygenResponse.estHttpBoundary ++ ascii "--\r\n\r\n" ≠ [] :=
    List.append_ne_nil_of_right_ne_nil _ ascii_ne_nil
  intro part hpart
  simp only [LibEst.Proxy.Dispatch.keygenParts, estProxyPropagateKeygenRsp, List.map_cons, List.map_nil,
    List.mem_cons, List.not_mem_nil, or_false] at hpart
  rcases hpart with rfl | rfl | rfl | rfl | rfl | rfl
  · exact hfirst
  · exact hkey
  · exact hboundary
  · exact htype
  · exact hcert
  · exact hfinal

/-- What the proxy writes of an answer from upstream. -/
theorem writes_relayed {client : ClientCtx} (hop : Enrolls op) (hfits : view.Fits op)
    (hpass : Passable view) (hdelay : S.retryPeriod = (view.received client).1.retryAfterDelay) :
    Writes (relayedText r.keepAlive view) (fun _ => True)
      (conclude S r op
        (enrolledReply (reqType op) (reply S.ctx true (taken op (view.received client)).2)) wire) := by
  have hrefused (rc : EstError) (hnone : rc ≠ .none) (hpending : rc ≠ .authPending) :
      enrolledReply (reqType op) (replyWith rc) = .refused rc :=
    (if_neg hnone).trans (if_neg hpending)
  cases view with
  | content contentType text =>
    obtain ⟨hkeygen, -, -, -, -, -, htext⟩ := hfits
    have hlength := hpass.2 contentType text rfl
    have htaken : (taken op ((View.content contentType text).received client)).2 = .ok (text, none) := by
      simp [taken, View.received, Except.bind, enrollBuffers, htext.ne, Nat.not_lt.mpr hlength, hkeygen]
    have hreply : enrolledReply (reqType op) (reply S.ctx true (.ok (text, none))) =
        .content (contentParts "application/pkcs7-mime; smime-type=certs-only" text) := by
      rcases hop with rfl | rfl | rfl
      · simp [enrolledReply, reply, reqType]
      · simp [enrolledReply, reply, reqType]
      · exact absurd rfl hkeygen
    rw [htaken, hreply]
    exact writes_concluded (contentParts_ne_nil htext.ne)
  | keys key cert =>
    obtain ⟨rfl, hkey, hcert, -, -⟩ := hfits
    have hkeyNe : key ≠ [] := List.ne_nil_of_length_pos (Nat.lt_of_lt_of_le (by decide) hkey.low)
    have hcertNe : cert ≠ [] := List.ne_nil_of_length_pos (Nat.lt_of_lt_of_le (by decide) hcert.low)
    have htaken : (taken .serverKeygen ((View.keys key cert).received client)).2 =
        .ok (cert, some key) := by
      simp [taken, View.received, Except.bind, enrollBuffers, hkeyNe, hcertNe, estMaxClientCertLen,
        estMaxClientPkeyLen, Nat.not_lt.mpr hkey.high, Nat.not_lt.mpr hcert.high]
    have hreply : enrolledReply (reqType .serverKeygen) (reply S.ctx true (.ok (cert, some key))) =
        .content (LibEst.Proxy.Dispatch.keygenParts key cert) := by
      simp [enrolledReply, reply, reqType]
    rw [htaken, hreply, relayedText, ← proxyKeygenParts_text]
    exact writes_concluded (proxyKeygenParts_ne hkeyNe hcertNe)
  | done => rcases hop with rfl | rfl | rfl <;> cases hfits
  | refused keep rc =>
    obtain ⟨-, hnone, hpending, hretry⟩ := seenError_passed (errorText rc).1
    have herror : errorView S r (passOn (seenError (errorText rc).1)) =
        relayed r.keepAlive (.refused keep rc) := if_neg hretry
    show Writes (relayed r.keepAlive (.refused keep rc)).text _
      (conclude S r op (enrolledReply (reqType op) (replyWith (passOn (seenError (errorText rc).1)))) wire)
    rw [hrefused _ hnone hpending, ← herror]
    exact writes_refused hnone hpending
  | retry delay =>
    have hretry : errorView S r .caEnrollRetry = .retry delay :=
      (if_pos rfl).trans (congrArg View.retry hdelay)
    show Writes (View.retry delay).text _
      (conclude S r op (enrolledReply (reqType op) (replyWith .caEnrollRetry)) wire)
    rw [hrefused .caEnrollRetry (by decide) (by decide), ← hretry]
    exact writes_refused (by decide) (by decide)
  | challenged mode realm now =>
    show Writes (errorView S r .authFail).text _
      (conclude S r op (enrolledReply (reqType op) (replyWith .authFail)) wire)
    rw [hrefused .authFail (by decide) (by decide)]
    exact writes_refused (by decide) (by decide)

end Writing

section Runs

def upstreamEvents (events : List ProxyEvent) : List Event :=
  events.filterMap fun event =>
    match event with
    | .upstream e => some e
    | .downstream _ => none

def downstreamEvents (events : List ProxyEvent) : List HttpEvent :=
  events.filterMap fun event =>
    match event with
    | .upstream _ => none
    | .downstream e => some e

variable {P : Platform} {W : UriParser} {brski : Bool} {env peerEnv : ClientEnv}
  {h : HttpProxy} {thread : Thread P} {net : Network} {wire : Wire} {p : ProxyState} {id : Nat}
  {client ctx : ClientCtx} {x : Exchange} {call : EnrollCall} {visit : Visit}

theorem relayed_events (sent : List Event) (written : List HttpEvent) :
    upstreamEvents (.downstream (.notice .reqStart) ::
        (sent.map .upstream ++ written.map .downstream)) = sent ∧
      downstreamEvents (.downstream (.notice .reqStart) ::
        (sent.map .upstream ++ written.map .downstream)) = .notice .reqStart :: written := by
  simp [upstreamEvents, downstreamEvents, List.filterMap_append, List.filterMap_map]

/-- What `handle_request` and `est_mg_handler` call the dispatcher of a proxy with. -/
def proxyRequest (visit : Visit) (frame : Frame) : ProxyRequest where
  toRequest := visit.request frame
  hasBody := (LibEst.Server.HttpMessage.getHeader frame.info.httpHeaders "Content-Length").isSome

/-- The path of a call, as the proxy takes it apart. -/
def arrivedAt (hsend : Sendable brski peerEnv x ctx call) : Routed where
  parsed := { rv := .none, operation := some call.op, pathSeg := ctx.uriPathSegment }
  short := by
    intro segment hsegment
    have hkept := hsend.kept
    rw [show ctx.uriPathSegment = some segment from hsegment] at hkept
    exact hkept.1.short

/-- The enrollment that the proxy makes of a call. -/
def enrollmentOf (hsend : Sendable brski peerEnv x ctx call) (visit : Visit) (net : Network) :
    Downstream :=
  enrollment (proxyRequest visit hsend.frame) visit.ssl (arrivedAt hsend) net (reqType call.op)

theorem clientFor_ctx {q : ProxyState} {found : Option (Nat × ClientCtx)}
    (hclient : clientFor P env q thread = some (p, found)) : p.ctx = q.ctx := by
  unfold clientFor at hclient
  simp only [Option.bind_eq_bind, Option.bind_eq_some_iff] at hclient
  obtain ⟨array, -, result, -, hrest⟩ := hclient
  obtain ⟨process, found'⟩ := result
  cases found' with
  | none =>
    cases hrest
    rfl
  | some id =>
    obtain ⟨client, -, hfound⟩ := Option.map_eq_some_iff.mp hrest
    cases hfound
    rfl

/-- An enrollment that the proxy takes goes through its loop, whatever that comes to. -/
theorem estProxyHandle_admitted {q : ProxyState} {d : Downstream} {op : EstOperation}
    {events : List Event} {value : Option (ClientCtx × Except EstError (Bytes × Option Bytes))}
    (hadmission : admission env q.ctx.server d = some .none)
    (hclient : clientFor P env q thread = some (p, some (id, client)))
    (hop : operation d.enrollReq = op)
    (hloop : tryAgain env q.ctx.server.authMode d.net d.request.body op 2 0
      (putSegment q.ctx d.request.pathSeg client) = ⟨events, value⟩) :
    (estProxyHandle P env q thread d).events = events ∧
      (estProxyHandle P env q thread d).value = value.map fun result =>
        ({ p with
            ctx := { q.ctx with retryAfterDelay := result.1.retryAfterDelay }
            clients := Function.update p.clients id (some { result.1 with authMode := .none }) },
          reply q.ctx.server d.request.writes result.2) := by
  have hctx := clientFor_ctx hclient
  unfold estProxyHandle
  simp only [hadmission, hclient, ofOption, mk_some_bind, List.nil_append, ne_eq, not_true_eq_false,
    if_false, withSegment_eq, hctx, hop, hloop]
  cases value with
  | none => exact ⟨rfl, rfl⟩
  | some result => exact ⟨List.append_nil _, rfl⟩

theorem reqType_operation {op : EstOperation} (hop : Enrolls op) : operation (reqType op) = op := by
  rcases hop with rfl | rfl | rfl <;> rfl

theorem proxyReply_enroll {op : EstOperation} (hop : Enrolls op) (r : ProxyRequest) (ssl : Ssl)
    (routed : Routed) : proxyReply P env h thread r ssl routed net op =
      estProxyHandleEnroll P env h thread (enrollment r ssl routed net (reqType op)) := by
  rcases hop with rfl | rfl | rfl <;> rfl

/-- A request as the client writes it is none that the proxy turns away. -/
theorem proxyRequest_right (hsend : Sendable brski peerEnv x ctx call) (visit : Visit) :
    LibEst.Proxy.Dispatch.wrongRequest call.op (proxyRequest visit hsend.frame) = none := by
  have hcarried := hsend.carried visit
  have hmethod : (proxyRequest visit hsend.frame).method = ascii "POST" := hcarried.method
  have htype : (proxyRequest visit hsend.frame).contentType = some (ascii "application/pkcs10") :=
    hcarried.contentType
  have hbody : (proxyRequest visit hsend.frame).hasBody = true := by
    have hlength := enrollHead_contentLength hsend.addressed call.op call.body.length hsend.spoken
    exact (congrArg Option.isSome hlength).trans rfl
  unfold LibEst.Proxy.Dispatch.wrongRequest
  rcases hsend.enrolls with hop | hop | hop <;> simp [hop, hmethod, htype, hbody]

variable (P env h thread) in
/-- The handler of an enrollment, and the answer behind it. -/
def answered (r : Request) (op : EstOperation) (d : Downstream) (wire : Wire) :
    Traced ProxyEvent (ProxyState × ReturnCode) := do
  let (p, reply) ← (estProxyHandleEnroll P env h thread d).rename .upstream
  let rc ← (conclude (h.server p.ctx.retryAfterDelay) r op reply wire).rename .downstream
  pure (p, .code rc)

/-- The dispatcher hands the request of a client to the handler of its operation. -/
theorem dispatched (hmode : h.state.ctx.server.estMode = .proxy) (hW : W.Lawful)
    (hsend : Sendable brski peerEnv x ctx call) (visit : Visit) :
    estProxyHttpRequest P env W brski h thread (proxyRequest visit hsend.frame) net wire =
      emit (.downstream (.notice .reqStart)) >>= fun _ =>
        answered P env h thread (visit.request hsend.frame) call.op (enrollmentOf hsend visit net) wire := by
  have hroute : route W brski (proxyRequest visit hsend.frame) = some (arrivedAt hsend) :=
    route_eq (hsend.routed hW)
  have hproxies : (some call.op).filter proxies = some call.op := by
    rcases hsend.enrolls with hop | hop | hop <;> rw [hop] <;> rfl
  have hssl : (proxyRequest visit hsend.frame).ssl = some visit.ssl := rfl
  have hhandle : LibEst.Proxy.Dispatch.handleOperation P env h thread (proxyRequest visit hsend.frame)
      visit.ssl (arrivedAt hsend) net call.op wire =
      answered P env h thread (visit.request hsend.frame) call.op (enrollmentOf hsend visit net) wire := by
    unfold LibEst.Proxy.Dispatch.handleOperation
    rw [proxyRequest_right hsend visit, proxyReply_enroll hsend.enrolls]
    rfl
  unfold estProxyHttpRequest
  rw [if_neg (not_not.mpr hmode), hssl]
  have hright : ¬ (arrivedAt hsend).parsed.rv ≠ .none := not_not.mpr rfl
  have hchosen : ((arrivedAt hsend).parsed.operation.or (proxyRequest visit hsend.frame).stale).filter
      proxies = some call.op := hproxies
  dsimp only
  rw [hroute]
  simp only [ofOption, mk_some_bind, List.nil_append]
  rw [if_neg hright, hchosen]
  dsimp only
  rw [hhandle]

end Runs

section Relaying

variable {P : Platform} {C : Crypto} {A : Asn1Ops} {W U : UriParser} {brski upBrski : Bool}
  {S : HttpServer} {env peerEnv : ClientEnv} {h : HttpProxy} {thread : Thread P} {net : Network}
  {p : ProxyState} {id : Nat} {client ctx : ClientCtx} {x : Exchange} {call : EnrollCall}
  {visit : Visit} {view : View}

/-- Where a run of the proxy gets through, the client reads in its writes, in whatever pieces
they come, what it would have read in the answer from upstream. -/
def Transparent (run : Traced ProxyEvent (ProxyState × ReturnCode)) (op : EstOperation) (view : View) :
    Prop :=
  ∀ result, run.value = some result → Through (downstreamEvents run.events) →
    ∀ (reader : ClientCtx) (chunks : List Bytes), (∀ chunk ∈ chunks, chunk ≠ []) →
      chunks.flatten = writtenBytes (downstreamEvents run.events) →
      ∃ got, estIoGetResponseInternal reader op (chunks.map some) = some got ∧
        got.2 = (view.received reader).2 ∧
        got.1.retryAfterDelay = (view.received reader).1.retryAfterDelay

/-- An answer from upstream, in the run of the dispatcher. -/
theorem answered_relayed {events : List Event} {reader : ClientCtx} {q : ProxyState} (r : Request)
    {d : Downstream} {op : EstOperation} (wire : Wire) (hop : Enrolls op) (hreq : d.enrollReq = reqType op)
    (hfits : view.Fits op) (hpass : Passable view)
    (hevents : (estProxyHandle P env h.state thread d).events = events)
    (hvalue : (estProxyHandle P env h.state thread d).value =
      some (q, reply h.state.ctx.server true (taken op (view.received reader)).2))
    (hdelay : q.ctx.retryAfterDelay = (view.received reader).1.retryAfterDelay) :
    Transparent (emit (.downstream (.notice .reqStart)) >>= fun _ =>
      answered P env h thread r op d wire) op view := by
  have hrun : answered P env h thread r op d wire =
      ⟨events.map .upstream ++ (conclude (h.server q.ctx.retryAfterDelay) r op
          (enrolledReply (reqType op) (reply h.state.ctx.server true (taken op (view.received reader)).2))
          wire).events.map .downstream,
        (conclude (h.server q.ctx.retryAfterDelay) r op
          (enrolledReply (reqType op) (reply h.state.ctx.server true (taken op (view.received reader)).2))
          wire).value.map fun rc => (q, .code rc)⟩ := by
    have hhandle : estProxyHandleEnroll P env h thread d =
        ⟨events, some (q, enrolledReply (reqType op)
          (reply h.state.ctx.server true (taken op (view.received reader)).2))⟩ := by
      rw [estProxyHandleEnroll, bind_of_value_some hvalue, hevents, hreq]
      exact congrArg₂ Traced.mk (List.append_nil _) rfl
    rw [answered, hhandle]
    simp only [Traced.rename, mk_some_bind, bind_pure_eq]
  have hwrites := @writes_relayed (h.server q.ctx.retryAfterDelay) r op view wire reader hop hfits hpass
    hdelay
  rw [hrun, emit_bind]
  intro result hresult hthrough chunkReader chunks hne hchunks
  dsimp only at hthrough hchunks hresult
  rw [(relayed_events _ _).2] at hthrough hchunks
  obtain ⟨rc, hrc, -⟩ := Option.map_eq_some_iff.mp hresult
  have htext := (hwrites rc hrc fun e he => hthrough e (List.mem_cons_of_mem _ he)).1
  refine ⟨_, relayed_read hop hfits chunkReader hne (hchunks.trans htext), relayed_same view⟩

/-- What has gone upstream, whatever comes of it. -/
theorem answered_upstream (r : Request) (d : Downstream) (op : EstOperation) (wire : Wire) :
    upstreamEvents (emit (.downstream (.notice .reqStart)) >>= fun _ =>
      answered P env h thread r op d wire).events = (estProxyHandle P env h.state thread d).events := by
  have hhandle := @bind_pure_eq _ _ _ (estProxyHandle P env h.state thread d)
    fun result => (result.1, enrolledReply d.enrollReq result.2)
  have hsame : estProxyHandleEnroll P env h thread d =
      ⟨(estProxyHandle P env h.state thread d).events, (estProxyHandle P env h.state thread d).value.map
        fun result => (result.1, enrolledReply d.enrollReq result.2)⟩ := hhandle
  rw [answered, hsame, emit_bind]
  simp only [Traced.rename]
  cases (estProxyHandle P env h.state thread d).value with
  | none =>
    simp only [Option.map_none, mk_none_bind]
    have hnone := (relayed_events (estProxyHandle P env h.state thread d).events []).1
    rwa [List.map_nil, List.append_nil] at hnone
  | some result =>
    simp only [Option.map_some, mk_some_bind, bind_pure_eq]
    exact (relayed_events _ _).1

/-- A proxy that takes an enrollment makes attempts with the body of the client. The server
upstream decides about the last of them, with the segment that the proxy puts into its target,
and the client reads in the answer of the proxy what that server has decided. -/
theorem enrollment_relayed (hmode : h.state.ctx.server.estMode = .proxy)
    (hup : S.ctx.estMode = .server) (hW : W.Lawful) (hU : U.Lawful)
    (hsend : Sendable brski peerEnv x ctx call) (visits : Nat → Visit) {cuts : List Cut}
    (hcuts : Supplies cuts (requestText peerEnv x ctx call).length)
    (hadmission : admission env h.state.ctx.server (enrollmentOf hsend (visits 0) net) = some .none)
    (hclient : clientFor P env h.state thread = some (p, some (id, client)))
    {sessions : Nat → Nat → Visit}
    (hpassed : ∀ i c, Tried env h.state.ctx.server.authMode net call.op call.body
        (putSegment h.state.ctx ctx.uriPathSegment client) i c →
      Passed C A U upBrski S (sessions i) env (net i) c call.op call.body) (wire : Wire) :
    processNewConnection (fun i => (visits i).round) (requestText peerEnv x ctx call) cuts =
        [hsend.frame] ∧
      ∃ run i c r view, run = estProxyHttpRequest P env W brski h thread
          (proxyRequest (visits 0) hsend.frame) net wire ∧
        Attempts env h.state.ctx.server.authMode net call.op call.body
          (putSegment h.state.ctx ctx.uriPathSegment client) (i + 1) (upstreamEvents run.events) ∧
        Tried env h.state.ctx.server.authMode net call.op call.body
          (putSegment h.state.ctx ctx.uriPathSegment client) i c ∧
        Carried env (net i) c (proxyCall call.op call.body) (sessions i 0) r ∧
        OperationDecides C A S r (sessions i 0).ssl
          (putSegment h.state.ctx ctx.uriPathSegment client).uriPathSegment call.op view ∧
        (Passable view → Transparent run call.op view) := by
  obtain ⟨i, c, events, htried, hattempts, hloop⟩ := tryAgain_last hpassed
  have hlast := hpassed i c htried
  obtain ⟨view, hview, hread⟩ := linked_read hup hU hlast.sendable hlast.linked
  obtain ⟨hevents, hvalue⟩ := estProxyHandle_admitted hadmission hclient
    (reqType_operation hsend.enrolls) hloop
  rw [htried.segment] at hview
  refine ⟨hsend.delivered _ hcuts, _, i, c, _, view, rfl, ?_, htried, hlast.sendable.carried _, hview, ?_⟩
  · rw [dispatched hmode hW hsend (visits 0), answered_upstream, hevents]
    exact hattempts
  · intro hpass
    have hgot : (estIoGetResponseInternal { c with lastHttpStatus := 0 } call.op (net i).reads).map
        (taken call.op) = some (taken call.op (view.received { c with lastHttpStatus := 0 })) :=
      congrArg (Option.map (taken call.op)) (hread hpass.1 _)
    rw [hlast.sends, hgot] at hvalue
    rw [dispatched hmode hW hsend (visits 0)]
    exact answered_relayed _ wire hsend.enrolls rfl (operationDecides_fits hview hpass.1) hpass hevents
      hvalue rfl

end Relaying

end LibEst.Wire.Relay
