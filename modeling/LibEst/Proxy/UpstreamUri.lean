import LibEst.Proxy.Forwarding
import LibEst.Client.EnrollCases
import LibEst.Client.RequestText
import LibEst.Client.ReferenceEnv

/-! Which path segment an upstream request has in its URI. It is the one that the
client context of the thread holds when the request is sent; a request with a segment
of its own, and a proxy with a configured one, overwrite what was there before. -/
namespace LibEst.Proxy.UpstreamUri

open LibEst.Basic LibEst.OpenSsl LibEst.Lib.ByteString LibEst.Lib.Machine LibEst.Lib.Trace
open LibEst.Lib.SlotArray
open LibEst.Server.AuthHeader LibEst.Server.Context LibEst.Server.EnrollAuth LibEst.Server.Enroll
open LibEst.Client.Context LibEst.Client.AuthHeader LibEst.Client.Http LibEst.Client.Request
open LibEst.Client.Answer LibEst.Client.RequestText LibEst.Client.Enroll
open LibEst.Client.EnrollCases LibEst.Client.Api
open LibEst.Proxy.ClientTable LibEst.Proxy.Forwarding

def segmentText (segment : Option Bytes) : Bytes :=
  match segment with
  | none => []
  | some segment => ascii "/" ++ segment

/-- The first line of a request for an operation under a path segment. -/
def requestLine (op : EstOperation) (segment : Option Bytes) : Bytes :=
  ascii "POST " ++ estPathPrefix ++ segmentText segment ++ ascii "/" ++ enrollResource op ++
    ascii " HTTP/1.1" ++ crlf

/-- A request was sent, and this is its first line. -/
def HasLine (line : Bytes) : Event → Prop
  | .sent t => line <+: t.request
  | _ => False

variable {P : Platform} {env : ClientEnv} {x : Exchange} {client client' : ClientCtx}
  {op : EstOperation}

section Headers

def Short (segment : Option Bytes) : Prop :=
  ∀ text, segment = some text → text.length ≤ estMaxPathSegmentLen

theorem requestLine_length {segment : Option Bytes} (h : Short segment) :
    (requestLine op segment).length ≤ estHttpReqTotalLen - 1 := by
  have hsegment : (segmentText segment).length ≤ 129 := by
    cases segment with
    | none => decide
    | some text =>
      have htext := h text rfl
      have hslash : (ascii "/").length = 1 := by decide
      unfold segmentText
      rw [List.length_append, hslash]
      unfold estMaxPathSegmentLen at htext
      omega
  have hresource : (enrollResource op).length ≤ 14 := by cases op <;> decide
  have hfixed : (ascii "POST ").length + estPathPrefix.length + (ascii "/").length +
      (ascii " HTTP/1.1").length + crlf.length = 33 := by decide
  have htotal : 1024 ≤ estHttpReqTotalLen - 1 := by decide
  unfold requestLine
  simp only [List.length_append]
  omega

theorem requestLine_postHeader (h : Short client.uriPathSegment) (n : Nat) :
    requestLine op client.uriPathSegment <+: postHeader env client (enrollResource op) n := by
  have hfront : ∃ rest, requestLines env client (ascii "POST") (enrollResource op) ++
      ascii "Content-Type: application/pkcs10" ++ crlf ++
      ascii "Content-Length: " ++ decimal n ++ crlf =
      requestLine op client.uriPathSegment ++ rest := by
    have hpost : ascii "POST " = ascii "POST" ++ ascii " " := by decide
    have hsegment : pathSegment client = segmentText client.uriPathSegment := rfl
    unfold requestLines requestLine
    rw [hpost, hsegment]
    simp only [List.append_assoc, List.append_cancel_left_eq]
    exact ⟨_, rfl⟩
  obtain ⟨rest, hrest⟩ := hfront
  unfold postHeader snprintf
  rw [hrest, List.prefix_take_iff]
  exact ⟨List.prefix_append _ _, requestLine_length h⟩

/-- Whatever header is built for a request of a handler begins with its line. -/
theorem enrollHeader_line (enrollReq : EnrollReqType) (hshort : Short client.uriPathSegment)
    {n : Nat} {hdr : Bytes} (h : enrollHeader env x client (operation enrollReq) n = some hdr)
    (hne : hdr ≠ []) : requestLine (operation enrollReq) client.uriPathSegment <+: hdr := by
  cases enrollReq with
  | simpleEnroll =>
    exact (requestLine_postHeader hshort n).trans ((addAuthHdr_extends h).resolve_left hne)
  | reenroll =>
    obtain ⟨out, hout, hlimit⟩ := Option.map_eq_some_iff.mp h
    have hsame : hdr = out := by
      rcases limitHeader_cases out with hnil | hsame
      · exact absurd (hlimit.symm.trans hnil) hne
      · exact hlimit.symm.trans hsame
    rw [hsame] at hne ⊢
    exact (requestLine_postHeader hshort n).trans ((addAuthHdr_extends hout).resolve_left hne)
  | serverKeygen =>
    exact (requestLine_postHeader hshort n).trans ((addAuthHdr_extends h).resolve_left hne)

end Headers

section Sending

theorem exchange_line {line hdr body : Bytes} (hline : hdr ≠ [] → line <+: hdr) (auth : AuthLine)
    (csr : Option X509Req) (privKey : Option EvpPkey) :
    ∀ e ∈ (exchange x client op auth csr privKey hdr body).events, HasLine line e := by
  intro e he
  obtain ⟨hne, t, rfl, -, hrequest⟩ := exchange_sends he
  exact (hline hne).trans (buildRequest_extends hrequest)

/-- What one attempt leaves of the context: the segment, and after a failed
authentication a mode that tells whether there may be another attempt. -/
structure AfterAttempt (client client' : ClientCtx)
    (answer : Except EstError (Bytes × Option Bytes)) : Prop where
  segment : client'.uriPathSegment = client.uriPathSegment
  mode : answer = .error .authFail → client'.authMode ≠ .fail →
    hasAuthenticated client.authMode = false ∧ hasAuthenticated client'.authMode = true

theorem parseHttpAuthRequest_mode (hdrs : List HttpHeader)
    (h : (estIoParseHttpAuthRequest client hdrs).authMode ≠ .fail) :
    hasAuthenticated (estIoParseHttpAuthRequest client hdrs).authMode = true := by
  unfold estIoParseHttpAuthRequest at h ⊢
  split
  · rename_i hnone
    simp [hnone] at h
  · rename_i hdr hfound
    simp only [hfound] at h
    split
    · rename_i hmode
      simp [hmode] at h
    · rename_i mode hmode
      simp only [hmode] at h ⊢
      unfold challengeMode at hmode
      split_ifs at h hmode ⊢ <;> first | cases hmode; rfl | exact absurd rfl h

theorem answered_after {status : Int} {hdrs : List HttpHeader} {r : Except EstError Buffers}
    (h : Answered { client with lastHttpStatus := 0 } status hdrs client' r) :
    AfterAttempt client client' (r.bind (enrollBuffers op)) where
  segment := eq_of_settled ClientCtx.uriPathSegment (fun _ => rfl) h.settled_eq
  mode := by
    intro hfail hmode
    have hr : r = .error .authFail := by
      cases r with
      | error rv => exact congrArg _ (Except.error.inj hfail)
      | ok buffers => exact absurd rfl (enrollBuffers_error hfail).2
    subst hr
    cases h with
    | again => exact absurd rfl hmode
    | challenge _ hbefore => exact ⟨hbefore, parseHttpAuthRequest_mode hdrs hmode⟩
    | error _ _ _ _ hrv => exact absurd rfl hrv

/-- What an attempt does where every header that is built begins with the line. -/
structure Attempted (line : Bytes) (client : ClientCtx)
    (t : Traced Event (ClientCtx × Except EstError (Bytes × Option Bytes))) : Prop where
  lines : ∀ e ∈ t.events, HasLine line e
  after : ∀ client' answer, t.value = some (client', answer) → AfterAttempt client client' answer

theorem attempted_silent {line : Bytes} {rv : EstError} (hrv : rv ≠ .authFail) :
    Attempted line client ⟨[], some (client, .error rv)⟩ where
  lines _ he := by cases he
  after client' answer h := by
    cases h
    exact ⟨rfl, fun hfail => absurd (Except.error.inj hfail) hrv⟩

theorem attempted_undefined {line : Bytes} : Attempted line client ⟨[], none⟩ where
  lines _ he := by cases he
  after _ _ h := by cases h

theorem sendEnroll_attempted {line pkcs10 : Bytes}
    (hline : ∀ hdr, enrollHeader env x client op pkcs10.length = some hdr → hdr ≠ [] → line <+: hdr) :
    Attempted line client (estClientSendEnrollRequest env x client pkcs10 op) := by
  unfold estClientSendEnrollRequest
  cases hhdr : enrollHeader env x client op pkcs10.length with
  | none =>
    rw [bind_of_value_none (ofOption_value _), ofOption_events]
    exact attempted_undefined
  | some hdr =>
    rw [bind_of_value_some (ofOption_value _), ofOption_events, List.nil_append]
    have hlines := @exchange_line x client op line hdr pkcs10 (hline hdr hhdr)
      (authLine (authEnv env x) client (resourceUri (enrollResource op))) none none
    have hexchanged := exchange_exchanged x client op
      (authLine (authEnv env x) client (resourceUri (enrollResource op))) none none hdr pkcs10
    generalize exchange x client op _ none none hdr pkcs10 = result at hlines hexchanged
    cases hexchanged with
    | undefined => exact attempted_undefined
    | unbuilt => exact attempted_silent nofun
    | sent t hctx =>
      cases hanswer : t.answer with
      | none =>
        rw [hanswer] at hlines
        rw [mk_none_bind]
        refine ⟨hlines, ?_⟩
        intro client' answer h
        cases h
      | some answer =>
        rw [hanswer] at hlines
        rw [mk_some_bind]
        simp only [pure_events, pure_value, List.append_nil]
        refine ⟨hlines, ?_⟩
        rintro client' answer' ⟨⟩
        have hanswered := sent_answered hanswer
        rw [hctx] at hanswered
        exact answered_after hanswered

/-- One attempt of the proxy, over a connection or without one. -/
theorem send_attempted_of {line pkcs10 : Bytes}
    (hline : ∀ hdr, enrollHeader env x client op pkcs10.length = some hdr → hdr ≠ [] → line <+: hdr) :
    Attempted line client (estProxySendRequest env x client pkcs10 op) := by
  unfold estProxySendRequest
  split
  · rename_i failure _
    have hrv : failure.toError ≠ .authFail := by cases failure <;> nofun
    exact attempted_silent hrv
  · exact sendEnroll_attempted hline

theorem send_attempted (enrollReq : EnrollReqType) (pkcs10 : Bytes)
    (hshort : Short client.uriPathSegment) :
    Attempted (requestLine (operation enrollReq) client.uriPathSegment) client
      (estProxySendRequest env x client pkcs10 (operation enrollReq)) :=
  send_attempted_of fun _ hhdr hne => enrollHeader_line enrollReq hshort hhdr hne

/-- Whatever the segment is, the mode tells whether there may be another attempt. -/
theorem send_after {pkcs10 : Bytes} {answer : Except EstError (Bytes × Option Bytes)}
    (h : (estProxySendRequest env x client pkcs10 op).value = some (client', answer)) :
    AfterAttempt client client' answer :=
  (@send_attempted_of env x client op [] pkcs10 fun _ _ _ => List.nil_prefix).after
    client' answer h

/-- A proxy tries again only after a challenge. -/
theorem triesAgain_iff {mode : AuthMode} {answer : Except EstError (Bytes × Option Bytes)} :
    triesAgain mode client' answer = true ↔
      answer = .error .authFail ∧ hasAuthenticated mode = true ∧ client'.authMode ≠ .fail := by
  cases answer with
  | ok stored => simp [triesAgain]
  | error rv => simp [triesAgain]

/-- The loop: all that it sends has the line of the segment it starts with. -/
theorem tryAgain_spec (mode : AuthMode) (net : Network) (pkcs10 : Bytes)
    (enrollReq : EnrollReqType) (fuel i : Nat) (hshort : Short client.uriPathSegment) :
    (∀ e ∈ (tryAgain env mode net pkcs10 (operation enrollReq) fuel i client).events,
      HasLine (requestLine (operation enrollReq) client.uriPathSegment) e) ∧
    ∀ client' answer, (tryAgain env mode net pkcs10 (operation enrollReq) fuel i client).value =
      some (client', answer) → client'.uriPathSegment = client.uriPathSegment := by
  induction fuel generalizing i client with
  | zero =>
    refine ⟨?_, ?_⟩
    · intro e he
      cases he
    · intro client' answer h
      cases h
  | succ fuel ih =>
    rw [tryAgain]
    have hattempt := @send_attempted env (net i) client enrollReq pkcs10 hshort
    generalize estProxySendRequest env (net i) client pkcs10 (operation enrollReq) = first
      at hattempt
    obtain ⟨hlines, hafter⟩ := hattempt
    cases hvalue : first.value with
    | none =>
      rw [bind_of_value_none hvalue]
      refine ⟨hlines, ?_⟩
      intro client' answer h
      cases h
    | some result =>
      obtain ⟨client', answer⟩ := result
      have hsegment := (hafter client' answer hvalue).segment
      rw [bind_of_value_some hvalue]
      dsimp only
      split
      · rw [← hsegment] at hshort hlines ⊢
        obtain ⟨hlater, hlast⟩ := ih (i + 1) hshort
        refine ⟨?_, hlast⟩
        intro e he
        rcases List.mem_append.mp he with he | he
        · exact hlines e he
        · exact hlater e he
      · refine ⟨?_, ?_⟩
        · rw [pure_events, List.append_nil]
          exact hlines
        · intro client'' answer' h
          cases h
          exact hsegment

/-- After a challenge there is no third attempt: with the mode of a challenge, a failed
authentication ends the loop. More fuel than for two attempts changes nothing. -/
theorem tryAgain_fuel (mode : AuthMode) (net : Network) (pkcs10 : Bytes) (op : EstOperation)
    (fuel i : Nat) :
    tryAgain env mode net pkcs10 op (fuel + 2) i client =
      tryAgain env mode net pkcs10 op 2 i client := by
  have hsecond : ∀ (later : ClientCtx) (j n : Nat), hasAuthenticated later.authMode = true →
      tryAgain env mode net pkcs10 op (n + 1) j later =
        estProxySendRequest env (net j) later pkcs10 op := by
    intro later j n hmode
    have hattempt := @send_after env (net j) later
    rw [tryAgain]
    cases hvalue : (estProxySendRequest env (net j) later pkcs10 op).value with
    | none =>
      rw [bind_of_value_none hvalue, ← hvalue]
    | some result =>
      obtain ⟨client', answer⟩ := result
      have hstop : ¬ triesAgain mode client' answer = true := by
        intro hagain
        obtain ⟨hfail, -, hne⟩ := triesAgain_iff.mp hagain
        have hbefore := ((hattempt hvalue).mode hfail hne).1
        rw [hbefore] at hmode
        cases hmode
      rw [bind_of_value_some hvalue]
      dsimp only
      rw [if_neg hstop, pure_events, pure_value, List.append_nil, ← hvalue]
  rw [tryAgain, tryAgain]
  cases hvalue : (estProxySendRequest env (net i) client pkcs10 op).value with
  | none => rw [bind_of_value_none hvalue, bind_of_value_none hvalue]
  | some result =>
    obtain ⟨client', answer⟩ := result
    rw [bind_of_value_some hvalue, bind_of_value_some hvalue]
    dsimp only
    by_cases hagain : triesAgain mode client' answer = true
    · obtain ⟨hfail, -, hne⟩ := triesAgain_iff.mp hagain
      have hmode := ((send_after hvalue).mode hfail hne).2
      rw [if_pos hagain, if_pos hagain, hsecond client' (i + 1) fuel hmode,
        hsecond client' (i + 1) 0 hmode]
    · rw [if_neg hagain, if_neg hagain]

end Sending

section Contexts

/-- The client context that the thread has in the table. -/
def holds (p : ProxyState) (thread : Thread P) : Option Nat :=
  (p.process.array 0).bind fun array => held array thread.id

/-- What every input leaves: the table is sound and the only one, and what is
configured is no longer than a path segment may be. -/
structure Good (p : ProxyState) : Prop where
  sound : Sound p.process
  alone : ∀ other, other ≠ 0 → p.process.array other = none
  short : Short p.ctx.uriPathSegment

theorem setUidPw_segment (uid pwd : Option Bytes) :
    (estClientSetUidPw client uid pwd).1.uriPathSegment = client.uriPathSegment := by
  unfold estClientSetUidPw
  split
  · rfl
  · rfl
  · rfl
  · split
    · rfl
    · dsimp only
      split <;> rfl

theorem setAuth_segment (uid pwd : Option Bytes) (cert : Option X509) (key : Option EvpPkey) :
    (estClientSetAuth env client uid pwd cert key).1.uriPathSegment = client.uriPathSegment := by
  have huid := @setUidPw_segment client uid pwd
  unfold estClientSetAuth
  split
  · rename_i heq
    rw [heq] at huid
    dsimp only
    split <;> exact huid
  · rename_i heq
    rw [heq] at huid
    exact huid

theorem setServer_segment (server : Option Bytes) (port : Int) :
    (estClientSetServer env client server port none).1.uriPathSegment = client.uriPathSegment := by
  unfold estClientSetServer
  split
  · rfl
  · split
    · rfl
    · split
      · rfl
      · split <;> rfl

/-- A new client context has no path segment. -/
theorem prepareClient_segment {p : ProxyCtx} {fresh : ClientCtx}
    (h : (prepareClient env p).2 = some fresh) : fresh.uriPathSegment = none := by
  unfold prepareClient at h
  split at h
  · cases h
  · rename_i client hinit
    have hclient : client.uriPathSegment = none := by
      unfold estClientInit at hinit
      split at hinit <;> cases hinit
      rfl
    split at h
    · rename_i authed hauth
      have hauthed := @setAuth_segment env client (some p.userid) (some p.password) p.serverCert
        p.serverPrivKey
      rw [hauth] at hauthed
      dsimp only at h
      split at h
      · rename_i served hserver
        have hserved := @setServer_segment env
          { authed with authCredentialsCb := p.authCredentialsCb } (some p.estServer) p.estPortNum
        rw [hserver] at hserved
        split at h <;> cases h
        exact hserved.trans (hauthed.trans hclient)
      · cases h
    · cases h

/-- A thread gets the context it has, or a new one without a segment. -/
theorem clientFor_spec {p p' : ProxyState} {thread : Thread P} {found : Option (Nat × ClientCtx)}
    (hgood : Good p) (h : clientFor P env p thread = some (p', found)) :
    Good p' ∧ p'.ctx = p.ctx ∧ ∀ id client, found = some (id, client) →
      (holds p thread = some id ∧ p.clients id = some client) ∨ client.uriPathSegment = none := by
  unfold clientFor at h
  simp only [Option.bind_eq_bind, Option.bind_eq_some_iff] at h
  obtain ⟨array, harray, ⟨process, ctx⟩, hget, hrest⟩ := h
  have htable := hgood.sound.table 0 array harray
  have hgrow := grows_of_defined htable harray hgood.alone hget
  obtain ⟨next, ctx', hget', hsound, -, hnote⟩ := getClientCtx_sound hgood.sound harray hgrow
  rw [hget] at hget'
  cases hget'
  have halone : ∀ other, other ≠ 0 → process.array other = none := by
    intro other hne
    have hother := congrFun hnote other
    simp only [handedOut, note, if_neg hne, hgood.alone other hne, Option.map_none,
      Option.map_eq_none_iff] at hother
    exact hother
  have hid : thread.id ≠ 0 := thread.property
  have hcases := getClientCtx_cases htable hid hget
  cases ctx with
  | none =>
    cases hrest
    refine ⟨⟨hsound, halone, hgood.short⟩, rfl, ?_⟩
    intro id client hnone
    cases hnone
  | some id =>
    obtain ⟨client, hclient, hfound⟩ := Option.map_eq_some_iff.mp hrest
    cases hfound
    refine ⟨⟨hsound, halone, hgood.short⟩, rfl, ?_⟩
    rintro id' client' ⟨⟩
    rcases hcases with ⟨rfl, hnone | hheld⟩ | ⟨hcreated, hnone | ⟨hnew, -⟩⟩
    · cases hnone
    · left
      rw [if_pos rfl] at hclient
      refine ⟨?_, hclient⟩
      rw [holds, harray, Option.bind_some, hheld]
    · cases hnone
    · right
      have hne : process.created ≠ p.process.created := by omega
      cases hnew
      rw [if_neg hne, Function.update_self] at hclient
      exact prepareClient_segment hclient

end Contexts

section Runs

/-- The segment that belongs into the URI: the one of the request, or else the one
that is configured. -/
def ownSegment (f : Forwarded) : Option Bytes := f.cause.request.pathSeg.or f.configured

def OwnUri (f : Forwarded) : Prop :=
  HasLine (requestLine (operation f.cause.enrollReq) (ownSegment f)) f.event

/-- A request with a segment of its own, or on a proxy with a configured one, or on a
thread whose client context has none left from an earlier request. -/
def NothingLeft : Option ProxyState → Input P → Prop
  | some p, .request thread d =>
      d.request.pathSeg ≠ none ∨ p.ctx.uriPathSegment ≠ none ∨
        ∀ id client, holds p thread = some id → p.clients id = some client →
          client.uriPathSegment = none
  | _, _ => True

theorem storePathSegment_short {p : ProxyCtx} (h : Short p.uriPathSegment)
    (segment : Option Bytes) : Short (estProxyStorePathSegment env p segment).1.uriPathSegment := by
  unfold estProxyStorePathSegment
  split
  · exact h
  · split
    · exact h
    · split
      · exact h
      · rename_i text hlength _
        rintro stored ⟨⟩
        rw [List.length_take]
        simp only [not_or, Nat.not_lt] at hlength
        omega

/-- The segment of the request gets into the context, or what was there is right. -/
theorem withSegment_own {p : ProxyCtx} {d : Downstream} (hshort : Short p.uriPathSegment)
    (hclient : d.request.pathSeg.or p.uriPathSegment = none → client.uriPathSegment = none) :
    (withSegment p d client).uriPathSegment = d.request.pathSeg.or p.uriPathSegment ∧
      Short (d.request.pathSeg.or p.uriPathSegment) := by
  have hown : Short (d.request.pathSeg.or p.uriPathSegment) := by
    cases hseg : d.request.pathSeg with
    | none =>
      rw [Option.none_or]
      exact hshort
    | some segment =>
      rintro text ⟨⟩
      exact d.pathSeg_short segment hseg
  refine ⟨?_, hown⟩
  unfold withSegment
  split
  · rename_i hnone
    rw [hnone]
    exact hclient hnone
  · rename_i segment hsome
    have hle := hown segment hsome
    rw [hsome]
    change some (segment.take (min segment.length estMaxPathSegmentLen)) = some segment
    rw [Nat.min_eq_left hle, List.take_length]

/-- What a handler does to a good state: all it sends has the line, and the state
stays good. -/
structure Handled (line : Bytes) (t : Traced Event (ProxyState × Returned)) : Prop where
  lines : ∀ e ∈ t.events, HasLine line e
  good : ∀ p reply, t.value = some (p, reply) → Good p

theorem handled_undefined {line : Bytes} : Handled line ⟨[], none⟩ where
  lines _ he := by cases he
  good _ _ h := by cases h

theorem handled_silent {line : Bytes} {p : ProxyState} {reply : Returned} (h : Good p) :
    Handled line ⟨[], some (p, reply)⟩ where
  lines _ he := by cases he
  good p' reply' heq := by
    cases heq
    exact h

/-- One request: what goes upstream has the own URI, and the state stays good. -/
theorem estProxyHandle_handled {p : ProxyState} {thread : Thread P} {d : Downstream}
    (hgood : Good p) (hleft : NothingLeft (some p) (.request thread d)) :
    Handled (requestLine (operation d.enrollReq) (d.request.pathSeg.or p.ctx.uriPathSegment))
      (estProxyHandle P env p thread d) := by
  unfold estProxyHandle
  cases admission env p.ctx.server d with
  | none =>
    rw [bind_of_value_none (ofOption_value _), ofOption_events]
    exact handled_undefined
  | some rc =>
    rw [bind_of_value_some (ofOption_value _), ofOption_events, List.nil_append]
    by_cases hrc : rc ≠ .none
    · rw [if_pos hrc]
      exact handled_silent hgood
    · rw [if_neg hrc]
      cases hclient : clientFor P env p thread with
      | none =>
        rw [bind_of_value_none (ofOption_value _), ofOption_events]
        exact handled_undefined
      | some result =>
        obtain ⟨p', found⟩ := result
        obtain ⟨hgood', hctx, hfound⟩ := clientFor_spec hgood hclient
        rw [bind_of_value_some (ofOption_value _), ofOption_events, List.nil_append]
        cases found with
        | none => exact handled_silent hgood'
        | some pair =>
          obtain ⟨id, client⟩ := pair
          dsimp only
          have hsegment : d.request.pathSeg.or p'.ctx.uriPathSegment = none →
              client.uriPathSegment = none := by
            intro hnone
            rw [hctx, Option.or_eq_none_iff] at hnone
            rcases hfound id client rfl with ⟨hholds, hstored⟩ | hfresh
            · rcases hleft with hown | hconfigured | hclear
              · exact absurd hnone.1 hown
              · exact absurd hnone.2 hconfigured
              · exact hclear id client hholds hstored
            · exact hfresh
          obtain ⟨howns, hshort⟩ := withSegment_own hgood'.short hsegment
          rw [← howns] at hshort
          obtain ⟨hlines, -⟩ := @tryAgain_spec env (withSegment p'.ctx d client)
            p'.ctx.server.authMode d.net d.request.body d.enrollReq 2 0 hshort
          rw [howns, hctx] at hlines
          rw [hctx]
          generalize tryAgain env p.ctx.server.authMode d.net d.request.body
            (operation d.enrollReq) 2 0 (withSegment p.ctx d client) = sent at hlines ⊢
          cases hvalue : sent.value with
          | none =>
            rw [bind_of_value_none hvalue]
            refine ⟨hlines, ?_⟩
            intro _ _ h
            cases h
          | some last =>
            rw [bind_of_value_some hvalue]
            refine ⟨?_, ?_⟩
            · rw [pure_events, List.append_nil]
              exact hlines
            · intro p'' reply h
              cases h
              exact ⟨hgood'.sound, hgood'.alone, hgood.short⟩

/-- The states of a run: good as long as the behaviour is defined. -/
def AllGood (s : Option ProxyState) : Prop := ∀ p, s = some p → Good p

theorem step_own {s next : Option ProxyState} {input : Input P} {sent : List Forwarded}
    (hgood : AllGood s) (hleft : NothingLeft s input)
    (h : step P env s input = some (next, sent)) : (∀ f ∈ sent, OwnUri f) ∧ AllGood next := by
  cases s with
  | none =>
    cases h
    exact ⟨fun f hf => absurd hf List.not_mem_nil, hgood⟩
  | some p =>
    have hp := hgood p rfl
    cases input with
    | storePathSegment segment =>
      cases h
      refine ⟨fun f hf => absurd hf List.not_mem_nil, ?_⟩
      intro p' hp'
      cases hp'
      exact ⟨hp.sound, hp.alone, storePathSegment_short hp.short segment⟩
    | request thread d =>
      have hhandled := @estProxyHandle_handled P env p thread d hp hleft
      cases h
      refine ⟨?_, ?_⟩
      · intro f hf
        obtain ⟨e, he, rfl⟩ := List.mem_map.mp hf
        exact hhandled.lines e he
      · intro p' hp'
        obtain ⟨⟨next, reply⟩, hvalue, rfl⟩ := Option.map_eq_some_iff.mp hp'
        exact hhandled.good _ reply hvalue

theorem freshProxy_good (P : Platform) (ctx : ProxyCtx) : Good (freshProxy ctx) where
  sound := (@proxyInit_sound P start start_sound).1
  alone other hne := by
    cases other with
    | zero => exact absurd rfl hne
    | succ n => rfl
  short _ h := by cases h

variable (P env) in
/-- A run of the proxy, and that all it has sent upstream has its own URI. -/
def OwnUris (ctx : ProxyCtx) (inputs : List (Input P)) : Prop :=
  ∃ last sent, run (step P env) (some (freshProxy ctx)) inputs = some (last, sent) ∧
    ∀ out ∈ sent, ∀ f ∈ out, OwnUri f

/-- Where no request can pick up what another left, every URI is the own one. -/
theorem upstream_uris_own (ctx : ProxyCtx) {inputs : List (Input P)}
    (h : Guarded (step P env) NothingLeft (some (freshProxy ctx)) inputs) :
    OwnUris P env ctx inputs := by
  have hdefined : ∀ s input, True → NothingLeft s input →
      ∃ next sent, step P env s input = some (next, sent) ∧ True := by
    intro s input _ _
    cases s with
    | none => exact ⟨_, _, rfl, trivial⟩
    | some p => cases input <;> exact ⟨_, _, rfl, trivial⟩
  have hkeep : ∀ (past : List (Input P)) (outs : List (List Forwarded)) s input next sent,
      ((∀ out ∈ outs, ∀ f ∈ out, OwnUri f) ∧ AllGood s) →
      NothingLeft s input → step P env s input = some (next, sent) →
      (∀ out ∈ outs ++ [sent], ∀ f ∈ out, OwnUri f) ∧ AllGood next := by
    rintro past outs s input next sent ⟨houts, hgood⟩ hleft hstep
    obtain ⟨hsent, hnext⟩ := step_own hgood hleft hstep
    refine ⟨?_, hnext⟩
    intro out hout
    rcases List.mem_append.mp hout with hout | hout
    · exact houts out hout
    · rw [List.mem_singleton.mp hout]
      exact hsent
  have hstart : AllGood (some (freshProxy ctx)) := by
    intro p hp
    cases hp
    exact freshProxy_good P ctx
  have hnone : ∀ out ∈ ([] : List (List Forwarded)), ∀ f ∈ out, OwnUri f :=
    fun out hout => absurd hout List.not_mem_nil
  obtain ⟨last, sent, hrun⟩ := run_defined hdefined trivial h
  exact ⟨last, sent, hrun, (run_history hkeep ⟨hnone, hstart⟩ h hrun).1⟩

end Runs

section Instances

open LibEst.Server.Reference LibEst.Client.ReferenceEnv

instance (line : Bytes) : DecidablePred (HasLine line)
  | .sent t => inferInstanceAs (Decidable (line <+: t.request))
  | .slept _ => inferInstanceAs (Decidable False)
  | .copiedCacerts => inferInstanceAs (Decidable False)
  | .reloadedTrust => inferInstanceAs (Decidable False)

instance : DecidablePred OwnUri := fun f =>
  inferInstanceAs (Decidable (HasLine (requestLine (operation f.cause.enrollReq) (ownSegment f)) f.event))

instance (s : Option ProxyState) (input : Input P) : Decidable (NothingLeft s input) :=
  match s, input with
  | none, _ => .isTrue trivial
  | some _, .storePathSegment _ => .isTrue trivial
  | some p, .request thread d =>
      decidable_of_iff (d.request.pathSeg ≠ none ∨ p.ctx.uriPathSegment ≠ none ∨
          ((holds p thread).bind p.clients).bind ClientCtx.uriPathSegment = none) (by
        refine or_congr_right (or_congr_right ?_)
        cases holds p thread with
        | none => simp
        | some id => simp [forall_comm (α := ℕ)])

/-- A proxy that takes the certificate of the device for its authentication. -/
def deviceProxy : ProxyCtx where
  server := { authCtx with estMode := .proxy, requireHttpAuth := .notRequired }
  caChainRaw := ascii "ca.pem"
  userid := ascii "proxy"
  password := ascii "pw"
  serverCert := none
  serverPrivKey := none
  authCredentialsCb := none
  estServer := ascii "up"
  estPortNum := 8085
  readTimeout := 10
  uriPathSegment := none
  retryAfterDelay := 0

/-- An enrollment of the device that the upstream server has no content for. -/
def deviceRequest (pathSeg : Option Bytes) (h : Short pathSeg) : Downstream where
  request :=
    { ssl := devSession, peerCert := some devCert, contentType := ascii "application/pkcs10"
      body := clientBody, pathSeg := pathSeg, writes := true }
  conn := { source := { authorization := none, stack := [] }, userId := [], statusCode := -1 }
  enrollReq := .simpleEnroll
  net := serving noContentAnswer noContentAnswer
  pathSeg_short := h

def tenantRequest : Downstream := deviceRequest (some (ascii "t1")) (by intro text h; cases h; decide)

def plainRequest : Downstream := deviceRequest none nofun

/-- A run of the reference proxy, seen from upstream. -/
def urisOwn (inputs : List (Input runningPlatform)) : Option Bool :=
  (run (step runningPlatform clientEnv) (some (freshProxy deviceProxy)) inputs).map fun result =>
    result.2.all fun out => out.all fun f => OwnUri f

/-- The request without a segment through another thread, and through the same one. -/
theorem tenantRuns_judged :
    Guarded (step runningPlatform clientEnv) NothingLeft (some (freshProxy deviceProxy))
        [.request (worker 0) tenantRequest, .request (worker 1) plainRequest] ∧
      urisOwn [.request (worker 0) tenantRequest, .request (worker 0) plainRequest] =
        some false := by
  decide +kernel

/-- A request with a segment, and one without that goes through another thread. -/
theorem upstream_uris_own_threads :
    Guarded (step runningPlatform clientEnv) NothingLeft (some (freshProxy deviceProxy))
        [.request (worker 0) tenantRequest, .request (worker 1) plainRequest] ∧
      OwnUris runningPlatform clientEnv deviceProxy
        [.request (worker 0) tenantRequest, .request (worker 1) plainRequest] :=
  ⟨tenantRuns_judged.1, upstream_uris_own deviceProxy tenantRuns_judged.1⟩

/-- On one thread, the second request goes to the tenant of the first. -/
theorem upstream_uri_left_over :
    ¬ OwnUris runningPlatform clientEnv deviceProxy
        [.request (worker 0) tenantRequest, .request (worker 0) plainRequest] := by
  rintro ⟨last, sent, hrun, hown⟩
  have hfound := tenantRuns_judged.2
  rw [urisOwn, hrun, Option.map_some, Option.some.injEq] at hfound
  have hall : (sent.all fun out => out.all fun f => decide (OwnUri f)) = true := by
    simp only [List.all_eq_true, decide_eq_true_eq]
    exact hown
  rw [hall] at hfound
  cases hfound

end Instances

end LibEst.Proxy.UpstreamUri
