import LibEst.Client.ApiCases
import LibEst.Client.ReferenceEnv

/-! When the client sends credentials: in answer to a challenge, with the scheme,
the realm and the nonce of that challenge. The context keeps all three from one
call to the next, so this rests on the state in which a call finds them. -/
namespace LibEst.Client.Credentials

open LibEst.Basic LibEst.OpenSsl LibEst.Lib.ByteString LibEst.Lib.Machine LibEst.Lib.Trace
open LibEst.Server.AuthHeader LibEst.Server.Reference
open LibEst.Client.Context LibEst.Client.AuthHeader LibEst.Client.Http LibEst.Client.Request
open LibEst.Client.Answer LibEst.Client.Enroll LibEst.Client.EnrollCases LibEst.Client.Api
open LibEst.Client.ApiCases LibEst.Client.Reference LibEst.Client.ReferenceEnv

variable {env : ClientEnv} {net : Network} {ctx : ClientCtx}

section Challenges

/-- The context with the mode, the realm and the nonce of a challenge, whatever it
had before. -/
def challenged (ctx : ClientCtx) (hdrs : List HttpHeader) : ClientCtx :=
  estIoParseHttpAuthRequest (unchallenged ctx) hdrs

/-- The second request goes to the server that has challenged the first one, with a
header that is made of the challenge and of the credentials alone. -/
structure InAnswerTo (env : ClientEnv) (t u : Sent) : Prop where
  server : u.ctx.estServer = t.ctx.estServer
  port : u.ctx.estPortNum = t.ctx.estPortNum
  status : t.status = 401
  header : u.auth = authLine (authEnv env u.exchange) (challenged u.ctx t.headers)
    (resourceUri (enrollResource u.op))

/-- Every request with credentials follows immediately on one that was challenged. -/
def AnswersChallenges (env : ClientEnv) (events : List Event) : Prop :=
  ∀ front u back text, events = front ++ .sent u :: back → u.auth = .value text →
    ∃ before t, front = before ++ [.sent t] ∧ InAnswerTo env t u

theorem answersChallenges_nil : AnswersChallenges env [] := by
  intro front u back text h
  simp at h

theorem answersChallenges_append {xs ys : List Event} (hxs : AnswersChallenges env xs)
    (hys : AnswersChallenges env ys) : AnswersChallenges env (xs ++ ys) := by
  intro front u back text h hauth
  rw [List.append_eq_append_iff] at h
  obtain ⟨mid, rfl, hmid⟩ | ⟨mid, hmid, hrest⟩ := h
  · obtain ⟨before, t, rfl, ht⟩ := hys mid u back text hmid hauth
    exact ⟨xs ++ before, t, (List.append_assoc ..).symm, ht⟩
  · cases mid with
    | nil =>
      rw [List.append_nil] at hmid
      obtain ⟨before, t, hbefore, -⟩ := hys [] u back text hrest.symm hauth
      simp at hbefore
    | cons e mid =>
      cases hrest
      exact hxs front u mid text hmid hauth

theorem answersChallenges_absent {t : Sent} (h : t.auth = .absent) :
    AnswersChallenges env [.sent t] := by
  intro front u back text hevents hauth
  cases front with
  | nil =>
    cases hevents
    rw [h] at hauth
    cases hauth
  | cons e front => simp at hevents

theorem answersChallenges_pair {t u : Sent} (ht : t.auth = .absent) (hu : InAnswerTo env t u) :
    AnswersChallenges env [.sent t, .sent u] := by
  intro front v back text hevents hauth
  cases front with
  | nil =>
    cases hevents
    rw [ht] at hauth
    cases hauth
  | cons e front =>
    cases front with
    | nil =>
      cases hevents
      exact ⟨[], t, rfl, hu⟩
    | cons e' front => simp at hevents

end Challenges

section Attempts

/-- A challenge for a digest says what the realm and the nonce are, or there are no
old ones. -/
def Complete (ctx : ClientCtx) (hdrs : List HttpHeader) : Prop :=
  (challenged ctx hdrs).authMode = .digest →
    (ctx.realm = [] ∨ (challenged ctx hdrs).realm ≠ []) ∧
      (ctx.sNonce = [] ∨ (challenged ctx hdrs).sNonce ≠ [])

/-- A challenge that is read into a context says the same as by itself. -/
theorem challenge_read {a b : ClientCtx} {hdrs : List HttpHeader}
    (hcomplete : Complete ctx hdrs) (hrealm : a.realm = ctx.realm) (hnonce : a.sNonce = ctx.sNonce) :
    (estIoParseHttpAuthRequest a hdrs).authMode = (challenged b hdrs).authMode ∧
      ((estIoParseHttpAuthRequest a hdrs).authMode = .digest →
        (estIoParseHttpAuthRequest a hdrs).realm = (challenged b hdrs).realm ∧
          (estIoParseHttpAuthRequest a hdrs).sNonce = (challenged b hdrs).sNonce) := by
  have hblank : Refreshed False False (unchallenged ctx) (unchallenged b) :=
    ⟨Or.inl rfl, Or.inl rfl⟩
  have hold : Refreshed (ctx.realm ≠ []) (ctx.sNonce ≠ []) a (unchallenged b) := by
    rw [← hrealm, ← hnonce]
    exact ⟨(Decidable.em (a.realm = [])).imp id (⟨·, rfl⟩),
      (Decidable.em (a.sNonce = [])).imp id (⟨·, rfl⟩)⟩
  obtain ⟨hmode, hsame⟩ := parseHttpAuthRequest_both hblank hdrs
  obtain ⟨hmode', hread⟩ := parseHttpAuthRequest_both hold hdrs
  refine ⟨hmode', ?_⟩
  intro hdigest
  obtain ⟨hrealm', hnonce'⟩ := hcomplete ((hmode.trans hmode'.symm).trans hdigest)
  have hrealmSame := hsame.realm.resolve_right (fun h => h.1)
  have hnonceSame := hsame.sNonce.resolve_right (fun h => h.1)
  unfold challenged at hrealm' hnonce'
  rw [hrealmSame] at hrealm'
  rw [hnonceSame] at hnonce'
  refine ⟨hread.realm.resolve_right ?_, hread.sNonce.resolve_right ?_⟩
  · rintro ⟨hne, hnil⟩
    exact hrealm'.elim hne fun h => h hnil
  · rintro ⟨hne, hnil⟩
    exact hnonce'.elim hne fun h => h hnil

theorem settled_challenged (ctx : ClientCtx) (hdrs : List HttpHeader) :
    settled (challenged ctx hdrs) = settled ctx :=
  parseHttpAuthRequest_settled (unchallenged ctx) hdrs

/-- The second request of a call answers the challenge to the first. -/
theorem inAnswerTo_of_retry {op : EstOperation} {t u : Sent} {ctx' : ClientCtx}
    (ht : EnrollSent env (net 0) ctx op t) (hcomplete : Complete ctx t.headers)
    (hanswer : t.answer = some (ctx', .error .authFail))
    (hmode : hasAuthenticated ctx'.authMode = true) (hu : EnrollSent env (net 1) ctx' op u) :
    InAnswerTo env t u := by
  have hanswered := sent_answered hanswer
  have hsettled : settled ctx' = settled ctx := by
    rw [hanswered.settled_eq, ht.context]
    rfl
  have hsettled' : settled u.ctx = settled ctx' := by
    rw [hu.context]
    rfl
  obtain ⟨-, hstatus, hctx'⟩ := hanswered.challenged hmode
  have hserver : u.ctx.estServer = t.ctx.estServer ∧ u.ctx.estPortNum = t.ctx.estPortNum := by
    rw [ht.context]
    exact ⟨eq_of_settled ClientCtx.estServer (fun _ => rfl) (hsettled'.trans hsettled),
      eq_of_settled ClientCtx.estPortNum (fun _ => rfl) (hsettled'.trans hsettled)⟩
  refine ⟨hserver.1, hserver.2, hstatus, ?_⟩
  rw [hu.header, hu.exchange, hu.operation]
  have hrealm : t.ctx.realm = ctx.realm := by rw [ht.context]
  have hnonce : t.ctx.sNonce = ctx.sNonce := by rw [ht.context]
  obtain ⟨hmode', hdigest⟩ := challenge_read (a := { t.ctx with lastHttpStatus := t.status })
    (b := u.ctx) hcomplete hrealm hnonce
  rw [← hctx'] at hmode' hdigest
  apply authLine_congr _ hmode' hdigest
  rw [settled_challenged, hsettled']

theorem attempts_answer {op : EstOperation} {result : Traced Event (ClientCtx × Enrolled × Bool)}
    (hmode : hasAuthenticated ctx.authMode = false)
    (hcomplete : Complete ctx (answerHeaders op (net 0).raw))
    (h : Attempts env net ctx op result) : AnswersChallenges env result.events := by
  have habsent {t : Sent} (ht : EnrollSent env (net 0) ctx op t) : t.auth = .absent := by
    rw [ht.header]
    exact authLine_absent _ hmode
  cases h with
  | undefined => exact answersChallenges_nil
  | refused => exact answersChallenges_nil
  | crashed t ht => exact answersChallenges_absent (habsent ht)
  | once t ht => exact answersChallenges_absent (habsent ht)
  | barred t ht => exact answersChallenges_absent (habsent ht)
  | twice t ht ctx' hanswer hretry u hu =>
    have hheaders : t.headers = answerHeaders op (net 0).raw := by
      rw [Sent.headers, Sent.raw, ht.operation, ht.exchange]
    rw [← hheaders] at hcomplete
    exact answersChallenges_pair (habsent ht)
      (inAnswerTo_of_retry ht hcomplete hanswer hretry hu)

end Attempts

section Calls

/-- Nothing that a header is made of has changed. -/
structure SameAuth (a b : ClientCtx) : Prop where
  authMode : a.authMode = b.authMode
  realm : a.realm = b.realm
  sNonce : a.sNonce = b.sNonce

theorem SameAuth.refl (a : ClientCtx) : SameAuth a a := ⟨rfl, rfl, rfl⟩

theorem SameAuth.trans {a b c : ClientCtx} (hab : SameAuth a b) (hbc : SameAuth b c) :
    SameAuth a c :=
  ⟨hab.authMode.trans hbc.authMode, hab.realm.trans hbc.realm, hab.sNonce.trans hbc.sNonce⟩

theorem SameAuth.complete {a b : ClientCtx} {hdrs : List HttpHeader} (h : SameAuth a b)
    (hb : Complete b hdrs) : Complete a hdrs := by
  have hblank : Refreshed False False (unchallenged a) (unchallenged b) :=
    ⟨Or.inl rfl, Or.inl rfl⟩
  obtain ⟨hmode, hsame⟩ := parseHttpAuthRequest_both hblank hdrs
  have hrealm := hsame.realm.resolve_right (fun h => h.1)
  have hnonce := hsame.sNonce.resolve_right (fun h => h.1)
  unfold Complete challenged at hb ⊢
  rw [hmode, hrealm, hnonce, h.realm, h.sNonce]
  exact hb

theorem answer_sameAuth {t : Sent} {ctx' : ClientCtx} {answer : Except EstError Buffers}
    (hctx : SameAuth t.ctx ctx) (hanswer : t.answer = some (ctx', answer))
    (hrv : answer ≠ .error .authFail) : SameAuth ctx' ctx := by
  obtain ⟨hmode, hrealm, hnonce⟩ := (sent_answered hanswer).kept hrv
  exact SameAuth.trans ⟨hmode, hrealm, hnonce⟩ hctx

theorem getCacerts_answers {result : Traced Event (ClientCtx × EstError × Option Nat)}
    (h : GotCacerts env net ctx result) : AnswersChallenges env result.events := by
  cases h with
  | undefined => exact answersChallenges_nil
  | refused => exact answersChallenges_nil
  | sent t hinit hctx hop hauth => exact answersChallenges_absent hauth

theorem getCacerts_sameAuth {result : Traced Event (ClientCtx × EstError × Option Nat)}
    {ctx' : ClientCtx} {rv : EstError} {len : Option Nat} (h : GotCacerts env net ctx result)
    (hvalue : result.value = some (ctx', rv, len)) (hrv : rv ≠ .authFail) : SameAuth ctx' ctx := by
  cases h with
  | undefined => cases hvalue
  | refused =>
    cases hvalue
    exact SameAuth.refl ctx
  | sent t hinit hctx =>
    obtain ⟨⟨last, answer⟩, hanswer, htake⟩ := Option.map_eq_some_iff.mp hvalue
    have hbefore : SameAuth t.ctx ctx := by
      rw [hctx]
      exact ⟨rfl, rfl, rfl⟩
    cases answer with
    | error error =>
      cases htake
      exact answer_sameAuth hbefore hanswer fun heq => hrv (Except.error.inj heq)
    | ok buffers =>
      obtain ⟨stored, hstored⟩ := storeCacerts_ctx env last buffers.cert
      have hfirst : ctx' = (storeCacerts env last buffers.cert).1 := (congrArg Prod.fst htake).symm
      have hlast := answer_sameAuth hbefore hanswer nofun
      rw [hfirst, hstored]
      exact ⟨hlast.authMode, hlast.realm, hlast.sNonce⟩

theorem getCsrattrs_answers {result : Traced Event (ClientCtx × Except EstError (Option Bytes))}
    (hmode : hasAuthenticated ctx.authMode = false) (h : GotCsrattrs env net ctx result) :
    AnswersChallenges env result.events := by
  cases h with
  | undefined => exact answersChallenges_nil
  | refused => exact answersChallenges_nil
  | sent t hctx hop hauth =>
    apply answersChallenges_absent
    rw [hauth]
    exact authLine_absent _ hmode

theorem getCsrattrs_sameAuth {result : Traced Event (ClientCtx × Except EstError (Option Bytes))}
    {ctx' : ClientCtx} {answer : Except EstError (Option Bytes)} (h : GotCsrattrs env net ctx result)
    (hvalue : result.value = some (ctx', answer)) (hrv : answer ≠ .error .authFail) :
    SameAuth ctx' ctx := by
  cases h with
  | undefined => cases hvalue
  | refused =>
    cases hvalue
    exact ⟨rfl, rfl, rfl⟩
  | sent t hctx =>
    obtain ⟨⟨last, received⟩, hanswer, htake⟩ := Option.map_eq_some_iff.mp hvalue
    have hbefore : SameAuth t.ctx ctx := by
      rw [hctx]
      exact ⟨rfl, rfl, rfl⟩
    cases received with
    | error error =>
      cases htake
      apply answer_sameAuth hbefore hanswer
      intro heq
      exact hrv (congrArg _ (Except.error.inj heq))
    | ok buffers =>
      have hlast := answer_sameAuth hbefore hanswer nofun
      obtain ⟨key, cert⟩ := buffers
      cases cert with
      | none =>
        cases htake
        exact hlast
      | some text =>
        obtain ⟨stored, hstored⟩ := storeCsrattrs_ctx env last text
        have hfirst : ctx' = (storeCsrattrs env last text).1 := (congrArg Prod.fst htake).symm
        rw [hfirst, hstored]
        exact ⟨hlast.authMode, hlast.realm, hlast.sNonce⟩

theorem enrollCall_answers {op : EstOperation} {result : Traced Event (ClientCtx × Enrolled)}
    (hmode : hasAuthenticated ctx.authMode = false)
    (hcomplete : Complete ctx (answerHeaders op (net 0).raw))
    (h : EnrollCall env net ctx op result) : AnswersChallenges env result.events := by
  cases h with
  | refused => exact answersChallenges_nil
  | attempted reset hinit hresult => exact attempts_answer hmode hcomplete hresult

end Calls

section Provisioning

theorem answersChallenges_quiet {e : Event} {events : List Event} (he : ∀ t, e ≠ .sent t)
    (h : AnswersChallenges env events) : AnswersChallenges env (e :: events) := by
  have hsingle : AnswersChallenges env [e] := by
    intro front u back text hevents
    cases front with
    | nil =>
      cases hevents
      exact absurd rfl (he u)
    | cons e' front => simp at hevents
  exact answersChallenges_append hsingle h

theorem provisionEnroll_answers {result : Traced Event (ClientCtx × Provisioned)}
    (hmode : hasAuthenticated ctx.authMode = false)
    (hcomplete : Complete ctx (answerHeaders .simpleEnroll (net 1).raw))
    (h : ProvisionEnroll env net ctx result) : AnswersChallenges env result.events := by
  cases h with
  | stopped hattrs => exact getCsrattrs_answers hmode hattrs
  | enrolled hattrs mid answer hvalue hanswer hresult =>
    have hsame : SameAuth mid ctx := by
      apply getCsrattrs_sameAuth hattrs hvalue
      rintro rfl
      simp [attrsCode] at hanswer
    have hmid : hasAuthenticated mid.authMode = false := by rw [hsame.authMode, hmode]
    have hlater : Complete mid (answerHeaders .simpleEnroll (later net 0).raw) := by
      rw [later_apply]
      exact hsame.complete hcomplete
    exact answersChallenges_append (getCsrattrs_answers hmode hattrs)
      (enrollCall_answers hmid hlater hresult)

theorem provisionCall_answers {result : Traced Event (ClientCtx × Provisioned)}
    (hmode : hasAuthenticated ctx.authMode = false)
    (hcomplete : Complete ctx (answerHeaders .simpleEnroll (net 2).raw))
    (h : ProvisionCall env net ctx result) : AnswersChallenges env result.events := by
  cases h with
  | refused => exact answersChallenges_nil
  | stopped hcerts => exact getCacerts_answers hcerts
  | copied hcerts =>
    exact answersChallenges_append (getCacerts_answers hcerts)
      (answersChallenges_quiet (fun _ h => nomatch h) answersChallenges_nil)
  | reloaded hcerts mid len hvalue pem hresult =>
    have hsame := getCacerts_sameAuth hcerts hvalue nofun
    generalize hloaded : { mid with trustedCerts := pem, estClientInitialized := true } = loaded
      at hresult
    have hsame' : SameAuth loaded ctx := by
      rw [← hloaded]
      exact ⟨hsame.authMode, hsame.realm, hsame.sNonce⟩
    have hmode' : hasAuthenticated loaded.authMode = false := by rw [hsame'.authMode, hmode]
    have hlater : Complete loaded (answerHeaders .simpleEnroll (later net 1).raw) := by
      rw [later_apply]
      exact hsame'.complete hcomplete
    have hrest := provisionEnroll_answers hmode' hlater hresult
    exact answersChallenges_append (getCacerts_answers hcerts)
      (answersChallenges_quiet (fun _ h => nomatch h) (answersChallenges_quiet (fun _ h => nomatch h) hrest))

end Provisioning

section Runs

/-- Where a call waits for a challenge: the number of the exchange, and the
operation. -/
def challengeAt : Call → Option (Nat × EstOperation)
  | .provisionCert _ _ => some (2, .simpleEnroll)
  | call => (enrollOperation call).map fun op => (0, op)

theorem challengeAt_enroll {call : Call} {op : EstOperation} (h : enrollOperation call = some op) :
    challengeAt call = some (0, op) := by
  cases call <;> cases h <;> rfl

/-- A call that may send credentials finds no mode from an earlier call, and the
challenge it meets is complete. -/
def Unprimed (client : ClientState) (input : Input) : Prop :=
  ∀ ctx, client = some ctx →
    (input.1 = .getCsrattrs ∨ (challengeAt input.1).isSome → hasAuthenticated ctx.authMode = false) ∧
      ∀ n op, challengeAt input.1 = some (n, op) →
        Complete ctx (answerHeaders op (input.2 n).raw)

theorem invoked_answers {call : Call} {result : Traced Event (ClientCtx × Reply)}
    (hok : Unprimed (some ctx) (call, net)) (h : Invoked env net ctx call result) :
    AnswersChallenges env result.events := by
  obtain ⟨hmode, hcomplete⟩ := hok ctx rfl
  cases h with
  | settings => exact answersChallenges_nil
  | getCacerts hcerts => exact getCacerts_answers hcerts
  | copyCacerts hcopy =>
    cases hcopy with
    | refused => exact answersChallenges_nil
    | copied => exact answersChallenges_quiet (fun _ h => nomatch h) answersChallenges_nil
  | getCsrattrs hattrs => exact getCsrattrs_answers (hmode (Or.inl rfl)) hattrs
  | enroll call op hop hcall =>
    have hat := challengeAt_enroll hop
    have hsome : (challengeAt call).isSome := by rw [hat]; rfl
    exact enrollCall_answers (hmode (Or.inr hsome)) (hcomplete 0 op hat) hcall
  | uncopied => exact answersChallenges_nil
  | provisionCert cn newPublicKey hcall =>
    exact provisionCall_answers (hmode (Or.inr rfl)) (hcomplete 2 .simpleEnroll rfl) hcall
  | copyEnrolledCert => exact answersChallenges_nil
  | copyServerGeneratedKey => exact answersChallenges_nil

theorem step_answers {client next : ClientState} {input : Input} {out : Output}
    (hok : Unprimed client input) (h : step env client input = some (next, out)) :
    AnswersChallenges env out.events := by
  cases client with
  | none =>
    cases h
    exact answersChallenges_nil
  | some ctx =>
    cases h
    exact invoked_answers hok (invoke_cases env input.2 ctx input.1)

/-- In a run in which no call finds the mode of an earlier one, and every challenge
for a digest is complete, credentials are sent in answer to challenges only. -/
theorem credentials_answer_challenges {client last : ClientState} {inputs : List Input}
    {outs : List Output} (hok : Guarded (step env) Unprimed client inputs)
    (h : run (step env) client inputs = some (last, outs)) :
    ∀ out ∈ outs, AnswersChallenges env out.events :=
  run_outputs (fun _ _ _ _ hstep hout => step_answers hstep hout) hok h

/-- An enrollment that a server challenges. -/
def challengedEnroll : List Input :=
  [(.enrollCsr (some clientReq) none, serving basicChallenge noContentAnswer)]

theorem credentials_answer_basic : ∃ last outs,
    run (step clientEnv) (some hostCtx) challengedEnroll = some (last, outs) ∧
      ∀ out ∈ outs, AnswersChallenges clientEnv out.events := by
  have hok : Guarded (step clientEnv) Unprimed (some hostCtx) challengedEnroll := by
    refine ⟨?_, fun _ _ _ => trivial⟩
    rintro ctx ⟨⟩
    refine ⟨fun _ => rfl, ?_⟩
    intro n op _ _
    exact ⟨Or.inl rfl, Or.inl rfl⟩
  obtain ⟨last, outs, hrun⟩ := run_exists clientEnv (some hostCtx) challengedEnroll
  exact ⟨last, outs, hrun, credentials_answer_challenges hok hrun⟩

/-- The header of a request that comes first in a call. -/
def leadingAuth : List Event → AuthLine
  | .sent t :: _ => t.auth
  | _ => .absent

theorem AnswersChallenges.leadingAuth_ne {events : List Event} (h : AnswersChallenges env events)
    (text : Bytes) : leadingAuth events ≠ .value text := by
  intro hauth
  cases events with
  | nil => cases hauth
  | cons e events =>
    cases e with
    | sent t =>
      obtain ⟨before, t', hbefore, -⟩ := h [] t events text rfl hauth
      simp at hbefore
    | slept => cases hauth
    | copiedCacerts => cases hauth
    | reloadedTrust => cases hauth

/-- One server challenges a request for attributes. The next request, to another
server, has the user name and the password in it from the start. -/
theorem credentials_leak : ∃ inputs : List Input,
    (∀ i ∈ inputs, i.1 ≠ .enableBasicAuthHint) ∧ ∃ last outs,
      run (step clientEnv) (some hostCtx) inputs = some (last, outs) ∧
        ¬ ∀ out ∈ outs, AnswersChallenges clientEnv out.events := by
  have hauths : (run (step clientEnv) (some hostCtx)
      [(.getCsrattrs, serving basicChallenge unreachable),
        (.setServer (some (ascii "other.example")) 443 none, serving unreachable unreachable),
        (.getCsrattrs, serving noContentAnswer unreachable)]).map
      (fun result => result.2.map fun out => leadingAuth out.events) =
      some [.absent, .absent, .value (ascii "Basic YWxpY2U6OnNlOmNyZXQ=")] := by
    decide +kernel
  obtain ⟨⟨last, outs⟩, hrun, houts⟩ := Option.map_eq_some_iff.mp hauths
  refine ⟨_, ?_, last, outs, hrun, ?_⟩
  · intro i hi
    simp only [List.mem_cons, List.not_mem_nil, or_false] at hi
    rcases hi with rfl | rfl | rfl <;> nofun
  · intro hall
    have hmem : AuthLine.value (ascii "Basic YWxpY2U6OnNlOmNyZXQ=") ∈
        outs.map fun out => leadingAuth out.events := by
      rw [houts]
      simp
    obtain ⟨out, hout, hleading⟩ := List.mem_map.mp hmem
    exact (hall out hout).leadingAuth_ne _ hleading

end Runs

end LibEst.Client.Credentials
