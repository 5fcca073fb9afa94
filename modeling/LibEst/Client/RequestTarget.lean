import LibEst.Client.Api
import LibEst.Client.RequestText

/-! Where the requests of a client go. Every call sends its requests to the server in
the context, with the segment in the context in their first line, and only a call that
sets the server changes either of them. -/
namespace LibEst.Client.RequestTarget

open LibEst.Basic LibEst.OpenSsl LibEst.Lib.ByteString LibEst.Lib.Machine LibEst.Lib.Trace
open LibEst.Server LibEst.Server.AuthHeader
open LibEst.Client.Context LibEst.Client.AuthHeader LibEst.Client.Http LibEst.Client.Request
open LibEst.Client.Answer LibEst.Client.RequestText LibEst.Client.Enroll LibEst.Client.Api

/-- Where a request goes to. -/
structure Destination where
  server : Bytes
  port : Int
  pathSegment : Option Bytes

def destination (ctx : ClientCtx) : Destination where
  server := ctx.estServer
  port := ctx.estPortNum
  pathSegment := ctx.uriPathSegment

variable {env : ClientEnv} {x : Exchange} {ctx : ClientCtx} {op : EstOperation} {d : Destination}
  {α β : Type}

section Requests

/-- A header begins with the lines that name the operation, the segment and the server. -/
def HeaderOf (env : ClientEnv) (ctx : ClientCtx) (hdr : Bytes) : Prop :=
  ∃ method resource more,
    snprintf estHttpReqTotalLen (requestLines env ctx method resource ++ more) <+: hdr

/-- An event that has to do with the trust anchors. -/
def AboutTrust : Event → Prop
  | .copiedCacerts => True
  | .reloadedTrust => True
  | _ => False

/-- Every request goes to the destination and says so, and the client keeps it. -/
structure Directed (env : ClientEnv) (d : Destination) (t : Traced Event (ClientCtx × α)) :
    Prop where
  sent : ∀ s, .sent s ∈ t.events → destination s.ctx = d ∧ HeaderOf env s.ctx s.request
  kept : ∀ ctx a, t.value = some (ctx, a) → destination ctx = d

theorem directed_pure (h : destination ctx = d) (a : α) :
    Directed env d (pure (ctx, a) : Traced Event (ClientCtx × α)) where
  sent _ hs := absurd hs List.not_mem_nil
  kept ctx' a' h' := by
    cases h'
    exact h

theorem directed_result {result : ClientCtx × α} (h : destination result.1 = d) :
    Directed env d (pure result) := directed_pure h result.2

theorem directed_undefined : Directed env d (⟨[], none⟩ : Traced Event (ClientCtx × α)) where
  sent _ hs := absurd hs List.not_mem_nil
  kept _ _ h := nomatch h

theorem directed_emit {e : Event} (he : AboutTrust e) {t : Traced Event (ClientCtx × α)}
    (h : Directed env d t) : Directed env d (emit e >>= fun _ => t) := by
  rw [emit_bind]
  constructor
  · intro s hs
    cases List.mem_cons.mp hs with
    | inl heq =>
      rw [← heq] at he
      exact he.elim
    | inr hrest => exact h.sent s hrest
  · exact h.kept

theorem Directed.bind {m : Traced Event (ClientCtx × α)} (h : Directed env d m)
    {f : ClientCtx × α → Traced Event (ClientCtx × β)}
    (hf : ∀ ctx a, destination ctx = d → Directed env d (f (ctx, a))) :
    Directed env d (m >>= f) := by
  cases hvalue : m.value with
  | none =>
    rw [bind_of_value_none hvalue]
    exact ⟨h.sent, fun _ _ h => nomatch h⟩
  | some r =>
    have hnext := hf r.1 r.2 (h.kept r.1 r.2 hvalue)
    rw [bind_of_value_some hvalue]
    constructor
    · intro s hs
      cases List.mem_append.mp hs with
      | inl hfirst => exact h.sent s hfirst
      | inr hsecond => exact hnext.sent s hsecond
    · exact hnext.kept

theorem directed_ofOption_bind {value : Option α} {f : α → Traced Event (ClientCtx × β)}
    (hf : ∀ a, value = some a → Directed env d (f a)) : Directed env d (ofOption value >>= f) := by
  cases hvalue : value with
  | none =>
    rw [bind_of_value_none (ofOption_value _), ofOption_events]
    exact directed_undefined
  | some a =>
    rw [bind_of_value_some (ofOption_value _), ofOption_events, List.nil_append]
    exact hf a hvalue

theorem destination_settled {a b : ClientCtx} (h : settled a = settled b) :
    destination a = destination b :=
  eq_of_settled destination (fun _ => rfl) h

theorem exchange_directed {hdr body : Bytes} {auth : AuthLine} {csr : Option X509Req}
    {privKey : Option EvpPkey} (hd : destination ctx = d) (hhdr : hdr ≠ [] → HeaderOf env ctx hdr) :
    Directed env d (exchange x ctx op auth csr privKey hdr body) := by
  constructor
  · intro s hs
    obtain ⟨hne, t, heq, hctx, hrequest⟩ := exchange_sends hs
    cases heq
    obtain ⟨method, resource, more, hlines⟩ := hhdr hne
    have hsame : requestLines env s.ctx method resource = requestLines env ctx method resource := by
      rw [hctx]
      rfl
    refine ⟨by rw [hctx]; exact hd, method, resource, more, ?_⟩
    rw [hsame]
    exact hlines.trans (buildRequest_extends hrequest)
  · intro ctx' answer h
    have hexchanged := exchange_exchanged x ctx op auth csr privKey hdr body
    generalize exchange x ctx op auth csr privKey hdr body = result at h hexchanged
    cases hexchanged with
    | undefined => cases h
    | unbuilt =>
      cases h
      exact hd
    | sent t hctx =>
      rw [← hd, destination_settled (sent_answered h).settled_eq, hctx]
      rfl

theorem headerOf_getHeader (resource : Bytes) :
    HeaderOf env ctx (getHeader env ctx resource) :=
  ⟨ascii "GET", resource, [], by rw [List.append_nil]; exact List.prefix_refl _⟩

theorem headerOf_postHeader (resource : Bytes) (n : Nat) :
    HeaderOf env ctx (postHeader env ctx resource n) := by
  refine ⟨ascii "POST", resource, ascii "Content-Type: application/pkcs10" ++ crlf ++
    ascii "Content-Length: " ++ decimal n ++ crlf, ?_⟩
  unfold postHeader
  simp only [List.append_assoc]
  exact List.prefix_refl _

theorem headerOf_addAuthHdr {hdr uri out : Bytes} {authEnv : AuthEnv} (hhdr : HeaderOf env ctx hdr)
    (h : estClientAddAuthHdr authEnv ctx hdr uri = some out) (hne : out ≠ []) :
    HeaderOf env ctx out := by
  obtain ⟨method, resource, more, hlines⟩ := hhdr
  exact ⟨method, resource, more, hlines.trans ((addAuthHdr_extends h).resolve_left hne)⟩

theorem headerOf_limitHeader {hdr : Bytes} (hhdr : hdr ≠ [] → HeaderOf env ctx hdr)
    (hne : limitHeader hdr ≠ []) : HeaderOf env ctx (limitHeader hdr) := by
  have hsame := (limitHeader_cases hdr).resolve_left hne
  rw [hsame] at hne ⊢
  exact hhdr hne

theorem headerOf_enrollHeader {n : Nat} {hdr : Bytes} (h : enrollHeader env x ctx op n = some hdr)
    (hne : hdr ≠ []) : HeaderOf env ctx hdr := by
  unfold enrollHeader at h
  split at h
  · exact headerOf_addAuthHdr (headerOf_postHeader _ n) h hne
  · obtain ⟨out, hout, rfl⟩ := Option.map_eq_some_iff.mp h
    exact headerOf_limitHeader (headerOf_addAuthHdr (headerOf_postHeader _ n) hout) hne
  · exact headerOf_addAuthHdr (headerOf_postHeader _ n) h hne
  · cases h
    exact absurd rfl hne

end Requests

section Enrolling

variable {net : Network}

theorem storeEnrolled_destination (ctx : ClientCtx) (cert : Bytes) (key : Option Bytes) :
    destination (storeEnrolled env ctx cert key).1 = destination ctx := by
  unfold storeEnrolled
  dsimp only
  split
  · rfl
  · split <;> rfl

theorem enrollReq_directed (hd : destination ctx = d) (csr : X509Req) (privKey : Option EvpPkey) :
    Directed env d (estClientEnrollReq env x ctx csr privKey op) := by
  unfold estClientEnrollReq estClientSendEnrollRequestInternal
  refine Directed.bind (directed_ofOption_bind fun hdr hhdr => ?_) fun ctx answer hctx => ?_
  · exact Directed.bind (exchange_directed hd (headerOf_enrollHeader hhdr)) fun ctx answer hctx =>
      directed_pure hctx _
  · cases answer with
    | error rv => exact directed_pure hctx _
    | ok stored =>
      exact directed_pure ((storeEnrolled_destination ctx stored.1 stored.2).trans hctx) _

theorem enrollBuilt_directed (hd : destination ctx = d) (built : Option (Except EstError X509Req))
    (privKey : EvpPkey) : Directed env d (enrollBuilt env x ctx built privKey op) := by
  unfold enrollBuilt
  apply directed_ofOption_bind
  intro csr _
  cases csr with
  | error rv => exact directed_pure hd _
  | ok csr => exact enrollReq_directed hd csr _

theorem secondAttempt_directed (hd : destination ctx = d) {attempt : Attempt}
    (hattempt : ∀ x ssl ctx, destination ctx = d → Directed env d (attempt x ssl ctx))
    (first : Enrolled) : Directed env d (secondAttempt env net attempt ctx first) := by
  unfold secondAttempt
  split
  · split
    · exact directed_pure hd _
    · split
      · exact directed_pure hd _
      · exact (hattempt _ _ ctx hd).bind fun ctx second hlast => directed_pure hlast _
  · exact directed_pure hd _

theorem attemptTwice_directed (hd : destination ctx = d) {attempt : Attempt}
    (hattempt : ∀ x ssl ctx, destination ctx = d → Directed env d (attempt x ssl ctx)) :
    Directed env d (attemptTwice env net ctx attempt) := by
  unfold attemptTwice
  split
  · exact directed_pure hd _
  · exact (hattempt _ _ ctx hd).bind fun ctx first hctx =>
      secondAttempt_directed hctx hattempt first

theorem enrollInternal_directed (hd : destination ctx = d) (cn : Bytes)
    (newPublicKey : Option EvpPkey) (op : EstOperation) :
    Directed env d (estClientEnrollInternal env net ctx cn newPublicKey op) := by
  unfold estClientEnrollInternal
  split
  · exact directed_pure hd _
  · split
    · exact directed_pure hd _
    · refine Directed.bind (attemptTwice_directed hd fun x ssl ctx hctx =>
        enrollBuilt_directed hctx _ _) fun ctx result hctx => ?_
      obtain ⟨enrolled, finished⟩ := result
      apply directed_pure
      split
      · exact hctx
      · exact hctx

theorem reenroll_directed (hd : destination ctx = d) (cert : Option X509)
    (privKey : Option EvpPkey) : Directed env d (estClientReenroll env net ctx cert privKey) := by
  unfold estClientReenroll
  split
  · exact directed_pure hd _
  · exact directed_pure hd _
  · split
    · exact directed_pure hd _
    · split
      · exact directed_pure hd _
      · exact directed_pure hd _
      · exact Directed.bind (attemptTwice_directed hd fun x ssl ctx hctx =>
          enrollBuilt_directed hctx _ _) fun ctx result hctx => directed_pure hctx _

theorem enrollCsrInternal_directed (hd : destination ctx = d) (csr : Option X509Req)
    (privKey : Option EvpPkey) (op : EstOperation) :
    Directed env d (estClientEnrollCsrInternal env net ctx csr privKey op) := by
  unfold estClientEnrollCsrInternal
  split
  · exact directed_pure hd _
  · split
    · exact directed_pure hd _
    · refine Directed.bind (attemptTwice_directed hd fun x ssl ctx hctx => ?_)
        fun ctx result hctx => directed_pure hctx _
      split
      · exact enrollBuilt_directed hctx _ _
      · exact enrollReq_directed hctx _ _

end Enrolling

section Calls

variable {net : Network}

theorem storeCacerts_destination (ctx : ClientCtx) (certs : Option Bytes) :
    destination (storeCacerts env ctx certs).1 = destination ctx := by
  unfold storeCacerts
  dsimp only
  split
  · rfl
  · split
    · rfl
    · split <;> rfl

theorem storeCsrattrs_destination (ctx : ClientCtx) (text : Bytes) :
    destination (storeCsrattrs env ctx text).1 = destination ctx := by
  unfold storeCsrattrs
  dsimp only
  split <;> rfl

theorem getCacerts_directed (hd : destination ctx = d) :
    Directed env d (estClientGetCacerts env net ctx) := by
  unfold estClientGetCacerts
  split
  · exact directed_pure hd _
  · split
    · exact directed_pure hd _
    · unfold estClientSendCacertsRequest
      refine Directed.bind (exchange_directed hd (headerOf_limitHeader fun _ =>
        headerOf_getHeader _)) fun ctx answer hctx => ?_
      cases answer with
      | error rv => exact directed_pure hctx _
      | ok buffers => exact directed_result ((storeCacerts_destination ctx buffers.cert).trans hctx)

theorem sendCsrattrs_directed (hd : destination ctx = d) :
    Directed env d (estClientSendCsrattrsRequest env x ctx) := by
  unfold estClientSendCsrattrsRequest
  apply directed_ofOption_bind
  intro hdr hhdr
  obtain ⟨out, hout, rfl⟩ := Option.map_eq_some_iff.mp hhdr
  exact Directed.bind (exchange_directed hd (headerOf_limitHeader
    (headerOf_addAuthHdr (headerOf_getHeader _) hout))) fun ctx answer hctx => directed_pure hctx _

theorem getCsrattrs_directed (hd : destination ctx = d) :
    Directed env d (estClientGetCsrattrs env net ctx) := by
  unfold estClientGetCsrattrs
  split
  · exact directed_pure hd _
  · refine (sendCsrattrs_directed (show destination { ctx with retrievedCsrattrs := none } = d from
      hd)).bind fun ctx answer hctx => ?_
    · cases answer with
      | error rv => exact directed_pure hctx _
      | ok text =>
        cases text with
        | none => exact directed_pure hctx _
        | some text => exact directed_result ((storeCsrattrs_destination ctx text).trans hctx)

theorem copyCacerts_directed (hd : destination ctx = d) :
    Directed env d (estClientCopyCacerts ctx) := by
  unfold estClientCopyCacerts
  split
  · exact directed_pure hd _
  · split
    · exact directed_pure hd _
    · exact directed_emit (show AboutTrust .copiedCacerts from trivial) (directed_result hd)

theorem reloadTrust_directed (hd : destination ctx = d) (certs : Bytes) :
    Directed env d (reloadTrust env ctx certs) := by
  unfold reloadTrust
  split
  · exact directed_pure hd _
  · split
    · exact directed_pure hd _
    · exact directed_emit (show AboutTrust .reloadedTrust from trivial) (directed_result hd)

theorem provisionEnroll_directed (hd : destination ctx = d) (cn : Bytes)
    (newPublicKey : Option EvpPkey) (caCertLen : Option Nat) :
    Directed env d (provisionEnroll env net ctx cn newPublicKey caCertLen) := by
  unfold provisionEnroll
  refine (getCsrattrs_directed hd).bind fun ctx answer hctx => ?_
  dsimp only
  split
  · exact directed_pure hctx _
  · exact (enrollInternal_directed hctx cn newPublicKey _).bind fun ctx enrolled hlast =>
      directed_pure hlast _

theorem provisionCert_directed (hd : destination ctx = d) (cn : Bytes)
    (newPublicKey : Option EvpPkey) :
    Directed env d (estClientProvisionCert env net ctx cn newPublicKey) := by
  unfold estClientProvisionCert
  split
  · exact directed_pure hd _
  · split
    · exact directed_pure hd _
    · refine (getCacerts_directed hd).bind fun ctx result hctx => ?_
      obtain ⟨rv, caCertLen⟩ := result
      dsimp only
      split
      · exact directed_pure hctx _
      · refine (copyCacerts_directed hctx).bind fun ctx answer hcopied => ?_
        cases answer with
        | error rv => exact directed_pure hcopied _
        | ok certs =>
          refine (reloadTrust_directed hcopied certs).bind fun ctx rv hloaded => ?_
          dsimp only
          split
          · exact directed_pure hloaded _
          · exact provisionEnroll_directed hloaded cn newPublicKey caCertLen

/-- A call that does not set the server. -/
def KeepsServer : Call → Prop
  | .setServer _ _ _ => False
  | _ => True

theorem setAuth_destination (ctx : ClientCtx) (uid pwd : Option Bytes) (cert : Option X509)
    (key : Option EvpPkey) :
    destination (estClientSetAuth env ctx uid pwd cert key).1 = destination ctx := by
  have hset : destination (estClientSetUidPw ctx uid pwd).1 = destination ctx := by
    unfold estClientSetUidPw
    split
    · rfl
    · rfl
    · rfl
    · dsimp only
      split
      · rfl
      · split <;> rfl
  unfold estClientSetAuth
  generalize estClientSetUidPw ctx uid pwd = result at hset
  split
  · dsimp only
    split <;> exact hset
  · exact hset

theorem copyEnrolledCert_destination (ctx : ClientCtx) :
    destination (estClientCopyEnrolledCert ctx).1 = destination ctx := by
  unfold estClientCopyEnrolledCert
  split
  · rfl
  · split <;> rfl

theorem copyServerGeneratedKey_destination (ctx : ClientCtx) :
    destination (estClientCopyServerGeneratedKey ctx).1 = destination ctx := by
  unfold estClientCopyServerGeneratedKey
  split
  · rfl
  · split <;> rfl

/-- Whatever is called, the requests go where the context says. -/
theorem invoke_directed (hd : destination ctx = d) {call : Call} (hcall : KeepsServer call) :
    Directed env d (invoke env net ctx call) := by
  cases call with
  | setServer => exact hcall.elim
  | setAuth uid pwd cert key =>
    exact directed_pure ((setAuth_destination ctx uid pwd cert key).trans hd) _
  | setAuthCredCb | enableBasicAuthHint | forcePop | unforcePop => exact directed_result hd
  | getCacerts =>
    exact (getCacerts_directed hd).bind fun ctx result hctx => directed_pure hctx _
  | copyCacerts =>
    exact (copyCacerts_directed hd).bind fun ctx result hctx => directed_pure hctx _
  | getCsrattrs =>
    exact (getCsrattrs_directed hd).bind fun ctx result hctx => directed_pure hctx _
  | enroll cn newPublicKey =>
    exact (enrollInternal_directed hd cn newPublicKey _).bind fun ctx result hctx =>
      directed_pure hctx _
  | serverKeygenEnroll cn newPublicKey =>
    exact (enrollInternal_directed hd cn newPublicKey _).bind fun ctx result hctx =>
      directed_pure hctx _
  | reenroll cert privKey =>
    exact (reenroll_directed hd cert privKey).bind fun ctx result hctx => directed_pure hctx _
  | enrollCsr csr privKey =>
    exact (enrollCsrInternal_directed hd csr privKey _).bind fun ctx result hctx =>
      directed_pure hctx _
  | serverKeygenEnrollCsr csr privKey =>
    refine Directed.bind ?_ fun ctx result hctx => directed_pure hctx _
    unfold estClientServerKeygenEnrollCsr
    split
    · exact directed_pure hd _
    · exact enrollCsrInternal_directed hd csr privKey _
  | provisionCert cn newPublicKey =>
    exact (provisionCert_directed hd cn newPublicKey).bind fun ctx result hctx =>
      directed_pure hctx _
  | copyEnrolledCert => exact directed_result ((copyEnrolledCert_destination ctx).trans hd)
  | copyServerGeneratedKey =>
    exact directed_result ((copyServerGeneratedKey_destination ctx).trans hd)

end Calls

section Runs

/-- A request goes to a destination, and its first lines say so. -/
def GoesTo (env : ClientEnv) (d : Destination) : Event → Prop
  | .sent s => destination s.ctx = d ∧ HeaderOf env s.ctx s.request
  | _ => True

/-- The client has this destination, or its behaviour is undefined. -/
def Aims (d : Destination) (client : ClientState) : Prop :=
  ∀ ctx, client = some ctx → destination ctx = d

theorem step_aims {client next : ClientState} {input : Input} {out : Output}
    (haims : Aims d client) (hcall : KeepsServer input.1)
    (h : step env client input = some (next, out)) :
    (∀ e ∈ out.events, GoesTo env d e) ∧ Aims d next := by
  unfold step at h
  cases client with
  | none =>
    cases h
    refine ⟨fun e he => absurd he List.not_mem_nil, ?_⟩
    intro ctx hctx
    cases hctx
  | some ctx =>
    have hdirected := @invoke_directed env ctx d input.2 (haims ctx rfl) input.1 hcall
    cases h
    constructor
    · intro e he
      cases e with
      | sent s => exact hdirected.sent s he
      | _ => trivial
    · intro ctx' hctx'
      obtain ⟨⟨last, reply⟩, hvalue, rfl⟩ := Option.map_eq_some_iff.mp hctx'
      exact hdirected.kept last reply hvalue

/-- Until the server is set again, every request goes where the client aims. -/
theorem run_goesTo {client last : ClientState} {inputs : List Input} {outs : List Output}
    (haims : Aims d client) (hcalls : ∀ input ∈ inputs, KeepsServer input.1)
    (h : run (step env) client inputs = some (last, outs)) :
    ∀ e ∈ allEvents outs, GoesTo env d e := by
  induction inputs generalizing client outs with
  | nil =>
    cases h
    exact fun e he => absurd he List.not_mem_nil
  | cons input rest ih =>
    obtain ⟨next, out, tail, hstep, hrun, rfl⟩ := run_cons_iff.mp h
    obtain ⟨hout, hnext⟩ := step_aims haims (hcalls input List.mem_cons_self) hstep
    intro e he
    unfold allEvents at he
    rw [List.flatMap_cons, List.mem_append] at he
    cases he with
    | inl hfirst => exact hout e hfirst
    | inr hrest =>
      exact ih hnext (fun i hi => hcalls i (List.mem_cons_of_mem _ hi)) hrun e hrest

end Runs

end LibEst.Client.RequestTarget
