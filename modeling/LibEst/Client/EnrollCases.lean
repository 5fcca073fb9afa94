import LibEst.Client.Answer
import LibEst.Client.Enroll

/-! What an enroll call can do, said once: which requests it sends, with which
headers and which certificate requests, and what it returns and keeps after each
answer. Everything else about enroll calls is read off these cases. -/
namespace LibEst.Client.EnrollCases

open LibEst.Basic LibEst.OpenSsl LibEst.Lib.ByteString LibEst.Lib.Trace
open LibEst.Server LibEst.Server.AuthHeader
open LibEst.Client.Context LibEst.Client.AuthHeader LibEst.Client.Http LibEst.Client.Request
open LibEst.Client.Answer LibEst.Client.Enroll

variable {env : ClientEnv} {x : Exchange} {ctx : ClientCtx} {op : EstOperation}

section Requests

/-- A certificate request has the challenge password in it. -/
def hasPop (csr : X509Req) : Bool := (getAttrByNid csr nidChallengePassword).isSome

theorem hasPop_clearCsrPop (csr : X509Req) : hasPop (TlsUid.estClientClearCsrPop csr) = false := by
  unfold hasPop getAttrByNid TlsUid.estClientClearCsrPop
  rw [Option.isSome_eq_false_iff, Option.isNone_iff_eq_none, List.find?_eq_none]
  intro attr hattr
  simpa using (List.mem_filter.mp hattr).2

theorem hasPop_addChallengePassword (csr : X509Req) (uid : Bytes) :
    hasPop (TlsUid.addChallengePassword csr uid) = true := by
  unfold hasPop getAttrByNid TlsUid.addChallengePassword
  rw [List.find?_isSome]
  exact ⟨_, List.mem_append_right _ (List.mem_singleton.mpr rfl), by simp⟩

theorem hasPop_sign {C : Crypto} {csr signed : X509Req} {key : EvpPkey} {md : Digest}
    (h : estX509ReqSign C csr key md = some signed) : hasPop signed = hasPop csr := by
  obtain ⟨signature, -, rfl⟩ := Option.map_eq_some_iff.mp h
  rfl

theorem hasPop_setPubkey {C : Crypto} {csr csr' : X509Req} {key : EvpPkey}
    (h : reqSetPubkey C csr key = some csr') : hasPop csr' = hasPop csr := by
  obtain ⟨pub, -, rfl⟩ := Option.map_eq_some_iff.mp h
  rfl

/-- A built request has the challenge password exactly where it is required, and a
request that cannot be built is never reported as a challenge. -/
def BuiltWith (pop : Bool) (built : Option (Except EstError X509Req)) : Prop :=
  ∀ result, built = some result →
    match result with
    | .error rv => rv ≠ .none ∧ rv ≠ .authFail
    | .ok csr => hasPop csr = pop

theorem enrollPkcs10_built (C : Crypto) (pop : Bool) (ssl : Ssl) (csr : X509Req) (key : EvpPkey)
    (md : Digest) : BuiltWith pop (TlsUid.estClientEnrollPkcs10 C pop ssl csr key md) := by
  intro result h
  unfold TlsUid.estClientEnrollPkcs10 at h
  cases pop with
  | false =>
    rw [if_neg Bool.false_ne_true, Option.some.injEq] at h
    subst h
    dsimp only
    cases hsign : estX509ReqSign C (TlsUid.estClientClearCsrPop csr) key md with
    | none => exact ⟨nofun, nofun⟩
    | some signed => exact (hasPop_sign hsign).trans (hasPop_clearCsrPop csr)
  | true =>
    rw [if_pos rfl] at h
    obtain ⟨uid, -, rfl⟩ := Option.map_eq_some_iff.mp h
    cases uid with
    | none => exact ⟨nofun, nofun⟩
    | some uid =>
      dsimp only
      cases hsign : estX509ReqSign C
          (TlsUid.addChallengePassword (TlsUid.estClientClearCsrPop csr) uid) key md with
      | none => exact ⟨nofun, nofun⟩
      | some signed => exact (hasPop_sign hsign).trans (hasPop_addChallengePassword _ uid)

theorem generatePkcs10_built (C : Crypto) (pop : Bool) (ssl : Ssl) (cn : Bytes) (key : EvpPkey)
    (md : Digest) : BuiltWith pop (TlsUid.estGeneratePkcs10 C pop ssl cn key md) := by
  intro result h
  obtain ⟨uid, -, rfl⟩ := Option.map_eq_some_iff.mp h
  cases uid with
  | none => exact ⟨nofun, nofun⟩
  | some uid =>
    dsimp only
    cases hpub : reqSetPubkey C (if pop = true then TlsUid.addChallengePassword _ uid else _) key with
    | none => exact ⟨nofun, nofun⟩
    | some req =>
      dsimp only
      cases hsign : estX509ReqSign C req key md with
      | none => exact ⟨nofun, nofun⟩
      | some signed =>
        have hkept := (hasPop_sign hsign).trans (hasPop_setPubkey hpub)
        dsimp only
        rw [hkept]
        cases pop with
        | false => rfl
        | true => exact hasPop_addChallengePassword _ uid

end Requests

section Attempts

/-- What the client makes of the answer to an enroll request. -/
def finish (env : ClientEnv) (op : EstOperation) (ctx : ClientCtx)
    (answer : Except EstError Buffers) : ClientCtx × Enrolled :=
  match answer.bind (enrollBuffers op) with
  | .error rv => (ctx, failed rv)
  | .ok (cert, key) => storeEnrolled env ctx cert key

/-- The outcome of a request, null where the answer leads to undefined behaviour. -/
def outcome (env : ClientEnv) (t : Sent) : Option (ClientCtx × Enrolled) :=
  t.answer.map fun answer => finish env t.op answer.1 answer.2

/-- A request of an enroll call. -/
structure EnrollSent (env : ClientEnv) (x : Exchange) (ctx : ClientCtx) (op : EstOperation)
    (t : Sent) : Prop where
  context : t.ctx = { ctx with lastHttpStatus := 0 }
  operation : t.op = op
  header : t.auth = authLine (authEnv env x) ctx (resourceUri (enrollResource op))
  exchange : t.exchange = x
  request : ∃ csr, t.csr = some csr ∧ (t.privKey ≠ none → hasPop csr = popRequired ctx)

/-- One attempt: nothing is sent, or one request. -/
inductive Attempted (env : ClientEnv) (x : Exchange) (ctx : ClientCtx) (op : EstOperation) :
    Traced Event (ClientCtx × Enrolled) → Prop
  | undefined : Attempted env x ctx op ⟨[], none⟩
  | refused (rv : EstError) (hnone : rv ≠ .none) (hrv : rv ≠ .authFail) :
      Attempted env x ctx op ⟨[], some (ctx, failed rv)⟩
  | sent (t : Sent) (h : EnrollSent env x ctx op t) :
      Attempted env x ctx op ⟨[.sent t], outcome env t⟩

theorem enrollReq_attempted {csr : X509Req} {privKey : Option EvpPkey}
    (hcsr : privKey ≠ none → hasPop csr = popRequired ctx) :
    Attempted env x ctx op (estClientEnrollReq env x ctx csr privKey op) := by
  unfold estClientEnrollReq estClientSendEnrollRequestInternal
  dsimp only
  cases enrollHeader env x ctx op (pkcs10Text env csr).length with
  | none => exact .undefined
  | some hdr =>
    have hexchanged := exchange_exchanged x ctx op
      (authLine (authEnv env x) ctx (resourceUri (enrollResource op))) (some csr) privKey hdr
      (pkcs10Text env csr)
    rw [bind_of_value_some (ofOption_value _), ofOption_events, List.nil_append]
    generalize exchange x ctx op _ (some csr) privKey hdr _ = result at hexchanged
    cases hexchanged with
    | undefined => exact .undefined
    | unbuilt => exact .refused .httpCannotBuildHeader nofun nofun
    | sent t hctx hop hauth hsent hkey hx =>
      have ht : EnrollSent env x ctx op t := by
        refine ⟨hctx, hop, hauth, hx, csr, hsent, ?_⟩
        rw [hkey]
        exact hcsr
      convert Attempted.sent t ht using 1
      unfold outcome finish
      rw [hop]
      cases t.answer with
      | none => rfl
      | some answer =>
        obtain ⟨ctx', answer⟩ := answer
        simp only [mk_some_bind, pure_events, pure_value, List.append_nil, Option.map_some]
        cases answer.bind (enrollBuffers op) <;> rfl

theorem enrollBuilt_attempted {built : Option (Except EstError X509Req)} {privKey : EvpPkey}
    (h : BuiltWith (popRequired ctx) built) :
    Attempted env x ctx op (enrollBuilt env x ctx built privKey op) := by
  unfold enrollBuilt
  cases built with
  | none => exact .undefined
  | some result =>
    have hresult := h result rfl
    rw [bind_of_value_some (ofOption_value _), ofOption_events, List.nil_append]
    cases result with
    | error rv => exact .refused rv hresult.1 hresult.2
    | ok csr => exact enrollReq_attempted fun _ => hresult

end Attempts

section Twice

variable {net : Network}

theorem enrollBuffers_error {buffers : Buffers} {rv : EstError}
    (h : enrollBuffers op buffers = .error rv) : rv ≠ .none ∧ rv ≠ .authFail := by
  unfold enrollBuffers at h
  dsimp only at h
  split_ifs at h <;> cases h <;> exact ⟨nofun, nofun⟩

theorem storeEnrolled_rv (ctx : ClientCtx) (cert : Bytes) (key : Option Bytes) :
    (storeEnrolled env ctx cert key).2.rv ≠ .authFail := by
  unfold storeEnrolled
  dsimp only
  split
  · nofun
  · split <;> nofun

theorem finish_error (rv : EstError) : finish env op ctx (.error rv) = (ctx, failed rv) := rfl

theorem finish_refused {buffers : Buffers} {rv : EstError}
    (h : enrollBuffers op buffers = .error rv) :
    finish env op ctx (.ok buffers) = (ctx, failed rv) := by
  simp only [finish, Except.bind, h]

theorem finish_stored {buffers : Buffers} {cert : Bytes} {key : Option Bytes}
    (h : enrollBuffers op buffers = .ok (cert, key)) :
    finish env op ctx (.ok buffers) = storeEnrolled env ctx cert key := by
  simp only [finish, Except.bind, h]

/-- An outcome is a failed authentication only where the answer is one. -/
theorem finish_authFail {answer : Except EstError Buffers}
    (h : (finish env op ctx answer).2.rv = .authFail) : answer = .error .authFail := by
  cases answer with
  | error rv =>
    rw [finish_error] at h
    exact congrArg _ h
  | ok buffers =>
    exfalso
    unfold finish at h
    change (match enrollBuffers op buffers with
      | .error rv => (ctx, failed rv)
      | .ok (cert, key) => storeEnrolled env ctx cert key).2.rv = .authFail at h
    cases hbuffers : enrollBuffers op buffers with
    | error rv =>
      rw [hbuffers] at h
      exact (enrollBuffers_error hbuffers).2 h
    | ok stored =>
      rw [hbuffers] at h
      exact storeEnrolled_rv ctx stored.1 stored.2 h

/-- A request is to be sent once more. -/
def Retried (ctx : ClientCtx) (answer : Except EstError Buffers) : Prop :=
  answer = .error .authFail ∧ hasAuthenticated ctx.authMode = true

/-- The attempts of one call. The result of the last request is what counts; a
first request that is to be sent once more may stay without a second one. -/
inductive Attempts (env : ClientEnv) (net : Network) (ctx : ClientCtx) (op : EstOperation) :
    Traced Event (ClientCtx × Enrolled × Bool) → Prop
  | undefined : Attempts env net ctx op ⟨[], none⟩
  | refused (rv : EstError) (finished : Bool) (hnone : rv ≠ .none) :
      Attempts env net ctx op ⟨[], some (ctx, failed rv, finished)⟩
  | crashed (t : Sent) (ht : EnrollSent env (net 0) ctx op t) (hanswer : t.answer = none) :
      Attempts env net ctx op ⟨[.sent t], none⟩
  | once (t : Sent) (ht : EnrollSent env (net 0) ctx op t) (ctx' : ClientCtx)
      (answer : Except EstError Buffers) (hanswer : t.answer = some (ctx', answer))
      (hretry : ¬ Retried ctx' answer) :
      Attempts env net ctx op ⟨[.sent t],
        some ((finish env op ctx' answer).1, (finish env op ctx' answer).2, true)⟩
  | barred (t : Sent) (ht : EnrollSent env (net 0) ctx op t) (ctx' : ClientCtx)
      (hanswer : t.answer = some (ctx', .error .authFail))
      (hmode : hasAuthenticated ctx'.authMode = true) (result : Option (EstError × Bool))
      (hresult : ∀ rv finished, result = some (rv, finished) → rv ≠ .none) :
      Attempts env net ctx op ⟨[.sent t],
        result.map fun (rv, finished) => (ctx', failed rv, finished)⟩
  | twice (t : Sent) (ht : EnrollSent env (net 0) ctx op t) (ctx' : ClientCtx)
      (hanswer : t.answer = some (ctx', .error .authFail))
      (hmode : hasAuthenticated ctx'.authMode = true)
      (u : Sent) (hu : EnrollSent env (net 1) ctx' op u) :
      Attempts env net ctx op ⟨[.sent t, .sent u],
        (outcome env u).map fun (ctx, enrolled) => (ctx, enrolled, true)⟩

theorem connectFailure_ne_none (failure : ConnectFailure) : failure.toError ≠ .none := by
  cases failure <;> nofun

theorem secondAttempt_of_not {attempt : Attempt} {first : Enrolled}
    (h : ¬ (first.rv = .authFail ∧ hasAuthenticated ctx.authMode = true)) :
    secondAttempt env net attempt ctx first = pure (ctx, first, true) := if_neg h

/-- After a challenge, the second attempt is made or barred. -/
theorem secondAttempt_attempts {attempt : Attempt} {t : Sent} {ctx' : ClientCtx}
    (hattempt : ∀ x ssl ctx, Attempted env x ctx op (attempt x ssl ctx))
    (ht : EnrollSent env (net 0) ctx op t) (hanswer : t.answer = some (ctx', .error .authFail))
    (hmode : hasAuthenticated ctx'.authMode = true) :
    Attempts env net ctx op
      ⟨[.sent t] ++ (secondAttempt env net attempt ctx' (failed .authFail)).events,
        (secondAttempt env net attempt ctx' (failed .authFail)).value⟩ := by
  have hbarred (rv : EstError) (finished : Bool) (hrv : rv ≠ .none) :
      Attempts env net ctx op ⟨[.sent t], some (ctx', failed rv, finished)⟩ := by
    apply Attempts.barred t ht ctx' hanswer hmode (some (rv, finished))
    rintro _ _ ⟨⟩
    exact hrv
  unfold secondAttempt
  rw [if_pos ⟨rfl, hmode⟩]
  split_ifs
  · exact hbarred .badMode false nofun
  · split
    · rename_i failure _
      exact hbarred _ false (connectFailure_ne_none failure)
    · rename_i ssl _
      have hsecond := hattempt (net 1) ssl ctx'
      generalize attempt (net 1) ssl ctx' = second at hsecond
      cases hsecond with
      | undefined => exact .barred t ht ctx' hanswer hmode none nofun
      | refused rv hnone hrv => exact hbarred rv true hnone
      | sent u hu =>
        convert Attempts.twice t ht ctx' hanswer hmode u hu using 1
        cases outcome env u <;> rfl

theorem attemptTwice_attempts {attempt : Attempt}
    (hattempt : ∀ x ssl ctx, Attempted env x ctx op (attempt x ssl ctx)) :
    Attempts env net ctx op (attemptTwice env net ctx attempt) := by
  unfold attemptTwice
  split
  · rename_i failure _
    exact .refused _ false (connectFailure_ne_none failure)
  · rename_i ssl _
    have hfirst := hattempt (net 0) ssl ctx
    generalize attempt (net 0) ssl ctx = first at hfirst
    cases hfirst with
    | undefined => exact .undefined
    | refused rv hnone hrv =>
      have hdone : secondAttempt env net attempt ctx (failed rv) = pure (ctx, failed rv, true) :=
        secondAttempt_of_not fun h => hrv h.1
      rw [mk_some_bind]
      dsimp only
      rw [hdone]
      exact .refused rv true hnone
    | sent t ht =>
      unfold outcome
      cases hanswer : t.answer with
      | none => exact .crashed t ht hanswer
      | some answer =>
        obtain ⟨ctx', answer⟩ := answer
        rw [Option.map_some, mk_some_bind, ht.operation]
        by_cases hretry : Retried ctx' answer
        · obtain ⟨rfl, hmode⟩ := hretry
          exact secondAttempt_attempts hattempt ht hanswer hmode
        · have hdone (h : (finish env op ctx' answer).2.rv = .authFail ∧
              hasAuthenticated (finish env op ctx' answer).1.authMode = true) : False := by
            have herror := finish_authFail h.1
            rw [herror, finish_error] at h
            exact hretry ⟨herror, h.2⟩
          dsimp only
          rw [secondAttempt_of_not hdone]
          exact .once t ht ctx' answer hanswer hretry

end Twice

end LibEst.Client.EnrollCases
