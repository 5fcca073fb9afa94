import LibEst.Client.Api
import LibEst.Client.EnrollCases

/-! What each call of the interface can do: the requests it sends, and the context
and the result it leaves. -/
namespace LibEst.Client.ApiCases

open LibEst.Basic LibEst.OpenSsl LibEst.SafeStr LibEst.Lib.ByteString LibEst.Lib.Trace
open LibEst.Server.AuthHeader LibEst.Server.CsrAttrs
open LibEst.Client.Context LibEst.Client.AuthHeader LibEst.Client.Http LibEst.Client.Request
open LibEst.Client.Answer LibEst.Client.Enroll LibEst.Client.EnrollCases LibEst.Client.Api

variable {env : ClientEnv} {net : Network} {ctx : ClientCtx}

section Cacerts

def takeCacerts (env : ClientEnv) (result : ClientCtx × Except EstError Buffers) :
    ClientCtx × EstError × Option Nat :=
  match result.2 with
  | .error rv => (result.1, rv, none)
  | .ok buffers => storeCacerts env result.1 buffers.cert

theorem storeCacerts_ctx (env : ClientEnv) (ctx : ClientCtx) (certs : Option Bytes) :
    ∃ stored, (storeCacerts env ctx certs).1 = { ctx with retrievedCaCerts := stored } := by
  unfold storeCacerts
  dsimp only
  split_ifs
  · exact ⟨ctx.retrievedCaCerts, rfl⟩
  · exact ⟨ctx.retrievedCaCerts, rfl⟩
  · split
    · exact ⟨none, rfl⟩
    · rename_i verified _
      exact ⟨some verified, rfl⟩

inductive GotCacerts (env : ClientEnv) (net : Network) (ctx : ClientCtx) :
    Traced Event (ClientCtx × EstError × Option Nat) → Prop
  | undefined : GotCacerts env net ctx ⟨[], none⟩
  | refused (rv : EstError) (hrv : rv ≠ .none) : GotCacerts env net ctx ⟨[], some (ctx, rv, none)⟩
  | sent (t : Sent) (hinit : ctx.estClientInitialized = true)
      (hctx : t.ctx = { ctx with lastHttpStatus := 0 }) (hop : t.op = .cacerts)
      (hauth : t.auth = .absent) (hcsr : t.csr = none) :
      GotCacerts env net ctx ⟨[.sent t], t.answer.map (takeCacerts env)⟩

theorem getCacerts_cases (env : ClientEnv) (net : Network) (ctx : ClientCtx) :
    GotCacerts env net ctx (estClientGetCacerts env net ctx) := by
  unfold estClientGetCacerts
  split
  · exact .refused .clientNotInitialized nofun
  · rename_i hinit
    split
    · rename_i failure _
      exact .refused _ (connectFailure_ne_none failure)
    · unfold estClientSendCacertsRequest
      dsimp only
      have hexchanged := exchange_exchanged (net 0) ctx .cacerts .absent none none
        (estClientBuildCacertsHeader env ctx) []
      generalize exchange (net 0) ctx .cacerts .absent none none _ [] = result at hexchanged
      cases hexchanged with
      | undefined => exact .undefined
      | unbuilt => exact .refused .httpCannotBuildHeader nofun
      | sent t hctx hop hauth hcsr hkey hx =>
        convert GotCacerts.sent t (by simpa using hinit) hctx hop hauth hcsr using 1
        cases t.answer with
        | none => rfl
        | some answer =>
          obtain ⟨ctx', answer⟩ := answer
          cases answer <;> rfl

end Cacerts

section Csrattrs

def takeCsrattrs (env : ClientEnv) (result : ClientCtx × Except EstError Buffers) :
    ClientCtx × Except EstError (Option Bytes) :=
  match result.2 with
  | .error rv => (result.1, .error rv)
  | .ok buffers =>
      match buffers.cert with
      | none => (result.1, .ok none)
      | some text => storeCsrattrs env result.1 text

theorem storeCsrattrs_ctx (env : ClientEnv) (ctx : ClientCtx) (text : Bytes) :
    ∃ stored, (storeCsrattrs env ctx text).1 =
      { ctx with
        retrievedCsrattrs := stored
        csrPopRequired := (estAsn1ParseAttributes env.crypto env.asn1 text text.length).2 } := by
  unfold storeCsrattrs
  dsimp only
  split_ifs
  · exact ⟨some text, rfl⟩
  · exact ⟨none, rfl⟩

inductive GotCsrattrs (env : ClientEnv) (net : Network) (ctx : ClientCtx) :
    Traced Event (ClientCtx × Except EstError (Option Bytes)) → Prop
  | undefined : GotCsrattrs env net ctx ⟨[], none⟩
  | refused (attrs : Option Bytes) (rv : EstError) (hnone : rv ≠ .none)
      (hcontent : rv ≠ .httpNoContent) :
      GotCsrattrs env net ctx ⟨[], some ({ ctx with retrievedCsrattrs := attrs }, .error rv)⟩
  | sent (t : Sent)
      (hctx : t.ctx = { ctx with retrievedCsrattrs := none, lastHttpStatus := 0 })
      (hop : t.op = .csrattrs)
      (hauth : t.auth = authLine (authEnv env (net 0)) ctx (resourceUri estGetCsrattrs))
      (hcsr : t.csr = none) (hexchange : t.exchange = net 0) :
      GotCsrattrs env net ctx ⟨[.sent t], t.answer.map (takeCsrattrs env)⟩

theorem connectFailure_ne_noContent (failure : ConnectFailure) :
    failure.toError ≠ .httpNoContent := by
  cases failure <;> nofun

/-- The request alone, before its answer is taken in. -/
theorem sendCsrattrs_exchanged (env : ClientEnv) (x : Exchange) (ctx : ClientCtx) :
    ∃ result, Exchanged x ctx .csrattrs
        (authLine (authEnv env x) ctx (resourceUri estGetCsrattrs)) none none result ∧
      estClientSendCsrattrsRequest env x ctx =
        ⟨result.events, result.value.map fun (ctx, answer) => (ctx, answer.map Buffers.cert)⟩ := by
  unfold estClientSendCsrattrsRequest
  dsimp only
  cases estClientBuildCsrHeader env x ctx with
  | none => exact ⟨_, .undefined, rfl⟩
  | some hdr =>
    refine ⟨_, exchange_exchanged x ctx .csrattrs _ none none hdr [], ?_⟩
    rw [bind_of_value_some (ofOption_value _), ofOption_events, List.nil_append]
    exact bind_pure_eq _ _

theorem getCsrattrs_cases (env : ClientEnv) (net : Network) (ctx : ClientCtx) :
    GotCsrattrs env net ctx (estClientGetCsrattrs env net ctx) := by
  unfold estClientGetCsrattrs
  split
  · rename_i failure _
    exact .refused ctx.retrievedCsrattrs _ (connectFailure_ne_none failure)
      (connectFailure_ne_noContent failure)
  · obtain ⟨result, hexchanged, hsend⟩ :=
      sendCsrattrs_exchanged env (net 0) { ctx with retrievedCsrattrs := none }
    rw [hsend]
    cases hexchanged with
    | undefined => exact .undefined
    | unbuilt => exact .refused none .httpCannotBuildHeader nofun nofun
    | sent t hctx hop hauth hcsr hkey hx =>
      have hsent : GotCsrattrs env net ctx ⟨[.sent t], t.answer.map (takeCsrattrs env)⟩ :=
        .sent t hctx hop hauth hcsr hx
      cases hanswer : t.answer with
      | none =>
        rw [hanswer] at hsent
        exact hsent
      | some answer =>
        rw [hanswer] at hsent
        obtain ⟨ctx', answer⟩ := answer
        cases answer with
        | error rv => exact hsent
        | ok buffers =>
          obtain ⟨key, cert⟩ := buffers
          cases cert <;> exact hsent

end Csrattrs

section Enrolling

/-- The end of an enroll call: some forget the mode. -/
def close (reset : Bool) (result : ClientCtx × Enrolled × Bool) : ClientCtx × Enrolled :=
  (if reset && result.2.2 then { result.1 with authMode := .none } else result.1, result.2.1)

inductive EnrollCall (env : ClientEnv) (net : Network) (ctx : ClientCtx) (op : EstOperation) :
    Traced Event (ClientCtx × Enrolled) → Prop
  | refused (rv : EstError) (hrv : rv ≠ .none) : EnrollCall env net ctx op ⟨[], some (ctx, failed rv)⟩
  | attempted (reset : Bool) (hinit : ctx.estClientInitialized = true)
      {result : Traced Event (ClientCtx × Enrolled × Bool)}
      (hresult : Attempts env net ctx op result) :
      EnrollCall env net ctx op ⟨result.events, result.value.map (close reset)⟩

theorem enrollInternal_cases (env : ClientEnv) (net : Network) (ctx : ClientCtx) (cn : Bytes)
    (newPublicKey : Option EvpPkey) (op : EstOperation) :
    EnrollCall env net ctx op (estClientEnrollInternal env net ctx cn newPublicKey op) := by
  unfold estClientEnrollInternal
  split
  · exact .refused .clientNotInitialized nofun
  · rename_i hinit
    split
    · exact .refused .noKey nofun
    · rename_i pkey
      have hattempts : Attempts env net ctx op (attemptTwice env net ctx fun x ssl ctx =>
          estClientEnrollCn env x ssl ctx cn op pkey) :=
        attemptTwice_attempts fun x ssl ctx => enrollBuilt_attempted (generatePkcs10_built _ _ _ _ _ _)
      convert EnrollCall.attempted true (by simpa using hinit) hattempts using 1
      exact bind_pure_eq _ (close true)

theorem enrollCsrInternal_cases (env : ClientEnv) (net : Network) (ctx : ClientCtx)
    (csr : Option X509Req) (privKey : Option EvpPkey) (op : EstOperation) :
    EnrollCall env net ctx op (estClientEnrollCsrInternal env net ctx csr privKey op) := by
  unfold estClientEnrollCsrInternal
  split
  · exact .refused .noCsr nofun
  · rename_i csr
    split
    · exact .refused .clientNotInitialized nofun
    · rename_i hinit
      have hcall {result : Traced Event (ClientCtx × Enrolled × Bool)}
          (h : Attempts env net ctx op result) :=
        EnrollCall.attempted false (by simpa using hinit) h
      convert hcall (attemptTwice_attempts _) using 1
      · exact bind_pure_eq _ (close false)
      · intro x ssl ctx
        cases privKey with
        | none => exact enrollReq_attempted fun h => absurd rfl h
        | some privKey => exact enrollBuilt_attempted (enrollPkcs10_built _ _ _ _ _ _)

/-- The extensions of the certificate cannot be copied. -/
def Uncopied (env : ClientEnv) (ctx : ClientCtx) (cert : Option X509) (privKey : Option EvpPkey) :
    Prop :=
  ctx.estClientInitialized = true ∧
    ∃ c k, cert = some c ∧ privKey = some k ∧ reenrollRequest env c k = .ok none

theorem reenrollRequest_error {cert : X509} {privKey : EvpPkey} {rv : EstError}
    (h : reenrollRequest env cert privKey = .error rv) : rv ≠ .none := by
  unfold reenrollRequest at h
  split at h
  · cases h
    nofun
  · split at h
    · cases h
      nofun
    · split at h
      · cases h
        nofun
      · cases h

theorem reenroll_cases (env : ClientEnv) (net : Network) (ctx : ClientCtx) (cert : Option X509)
    (privKey : Option EvpPkey) :
    EnrollCall env net ctx .simpleReenroll (estClientReenroll env net ctx cert privKey) ∨
      Uncopied env ctx cert privKey ∧
        estClientReenroll env net ctx cert privKey = ⟨[], some (ctx, failed .none)⟩ := by
  unfold estClientReenroll
  split
  · exact Or.inl (.refused .noCert nofun)
  · exact Or.inl (.refused .noKey nofun)
  · rename_i cert privKey
    split
    · exact Or.inl (.refused .clientNotInitialized nofun)
    · rename_i hinit
      split
      · rename_i rv hrequest
        exact Or.inl (.refused rv (reenrollRequest_error hrequest))
      · rename_i hrequest
        exact Or.inr ⟨⟨by simpa using hinit, cert, privKey, rfl, rfl, hrequest⟩, rfl⟩
      · rename_i req _
        have hattempts : Attempts env net ctx .simpleReenroll
            (attemptTwice env net ctx fun x ssl ctx =>
              estClientEnrollPkcs10 env x ssl ctx req .simpleReenroll privKey) :=
          attemptTwice_attempts fun x ssl ctx => enrollBuilt_attempted (enrollPkcs10_built _ _ _ _ _ _)
        apply Or.inl
        convert EnrollCall.attempted false (by simpa using hinit) hattempts using 1
        exact bind_pure_eq _ (close false)

theorem serverKeygenEnrollCsr_cases (env : ClientEnv) (net : Network) (ctx : ClientCtx)
    (csr : Option X509Req) (privKey : Option EvpPkey) :
    EnrollCall env net ctx .serverKeygen
      (estClientServerKeygenEnrollCsr env net ctx csr privKey) := by
  unfold estClientServerKeygenEnrollCsr
  split
  · exact .refused .noKey nofun
  · exact enrollCsrInternal_cases ..

end Enrolling

section Configuration

/-- What the application has set up: the context without what answers leave in it,
the requirement of the challenge password apart. -/
def configured (ctx : ClientCtx) : ClientCtx :=
  { settled ctx with
    retrievedCaCerts := none
    retrievedCsrattrs := none
    enrolledClientCert := none
    serverGenClientPrivKey := none }

theorem eq_of_configured {α : Type} {a b : ClientCtx} (f : ClientCtx → α)
    (hf : ∀ ctx, f (configured ctx) = f ctx) (h : configured a = configured b) : f a = f b := by
  rw [← hf a, h, hf b]

theorem configured_of_settled {a b : ClientCtx} (h : settled a = settled b) :
    configured a = configured b :=
  eq_of_settled configured (fun _ => rfl) h

/-- All requests are sent as the application has set the client up. -/
def SentAs (ctx : ClientCtx) (events : List Event) : Prop :=
  ∀ t, .sent t ∈ events → configured t.ctx = configured ctx

theorem sentAs_nil : SentAs ctx [] := fun _ h => absurd h List.not_mem_nil

theorem sentAs_cons {t : Sent} {events : List Event} (ht : configured t.ctx = configured ctx)
    (h : SentAs ctx events) : SentAs ctx (.sent t :: events) := by
  intro u hu
  cases List.mem_cons.mp hu with
  | inl heq =>
    cases heq
    exact ht
  | inr hmem => exact h u hmem

theorem storeEnrolled_configured (ctx : ClientCtx) (cert : Bytes) (key : Option Bytes) :
    configured (storeEnrolled env ctx cert key).1 = configured ctx := by
  unfold storeEnrolled
  dsimp only
  split
  · rfl
  · split_ifs <;> rfl

theorem finish_configured {op : EstOperation} (ctx : ClientCtx) (answer : Except EstError Buffers) :
    configured (finish env op ctx answer).1 = configured ctx := by
  unfold finish
  split
  · rfl
  · exact storeEnrolled_configured ctx _ _

theorem enrollSent_configured {x : Exchange} {op : EstOperation} {t : Sent}
    (h : EnrollSent env x ctx op t) : configured t.ctx = configured ctx := by
  rw [h.context]
  rfl

theorem answer_configured {t : Sent} {ctx' : ClientCtx} {answer : Except EstError Buffers}
    (h : t.answer = some (ctx', answer)) : configured ctx' = configured t.ctx :=
  configured_of_settled (sent_answered h).settled_eq

theorem attempts_configured {op : EstOperation}
    {result : Traced Event (ClientCtx × Enrolled × Bool)} (h : Attempts env net ctx op result) :
    SentAs ctx result.events ∧
      ∀ last, result.value = some last → configured last.1 = configured ctx := by
  cases h with
  | undefined => exact ⟨sentAs_nil, fun _ h => nomatch h⟩
  | refused =>
    refine ⟨sentAs_nil, ?_⟩
    rintro last ⟨⟩
    rfl
  | crashed t ht => exact ⟨sentAs_cons (enrollSent_configured ht) sentAs_nil, fun _ h => nomatch h⟩
  | once t ht ctx' answer hanswer =>
    refine ⟨sentAs_cons (enrollSent_configured ht) sentAs_nil, ?_⟩
    rintro last ⟨⟩
    exact (finish_configured ctx' answer).trans
      ((answer_configured hanswer).trans (enrollSent_configured ht))
  | barred t ht ctx' hanswer hmode value =>
    refine ⟨sentAs_cons (enrollSent_configured ht) sentAs_nil, ?_⟩
    intro last hlast
    obtain ⟨error, -, rfl⟩ := Option.map_eq_some_iff.mp hlast
    exact (answer_configured hanswer).trans (enrollSent_configured ht)
  | twice t ht ctx' hanswer hmode u hu =>
    have hfirst : configured ctx' = configured ctx :=
      (answer_configured hanswer).trans (enrollSent_configured ht)
    have hsecond : configured u.ctx = configured ctx := (enrollSent_configured hu).trans hfirst
    refine ⟨sentAs_cons (enrollSent_configured ht) (sentAs_cons hsecond sentAs_nil), ?_⟩
    intro last hlast
    obtain ⟨enrolled, houtcome, rfl⟩ := Option.map_eq_some_iff.mp hlast
    obtain ⟨⟨ctx'', answer⟩, hsent, rfl⟩ := Option.map_eq_some_iff.mp houtcome
    exact (finish_configured ctx'' answer).trans ((answer_configured hsent).trans hsecond)

theorem close_configured {reset : Bool} (result : ClientCtx × Enrolled × Bool) :
    configured (close reset result).1 = configured result.1 := by
  unfold close
  dsimp only
  split_ifs <;> rfl

theorem enrollCall_configured {op : EstOperation} {result : Traced Event (ClientCtx × Enrolled)}
    (h : EnrollCall env net ctx op result) :
    SentAs ctx result.events ∧
      ∀ last, result.value = some last → configured last.1 = configured ctx := by
  cases h with
  | refused =>
    refine ⟨sentAs_nil, ?_⟩
    rintro last ⟨⟩
    rfl
  | attempted reset hinit hresult =>
    obtain ⟨hsent, hlast⟩ := attempts_configured hresult
    refine ⟨hsent, ?_⟩
    intro last hvalue
    obtain ⟨value, hresult, rfl⟩ := Option.map_eq_some_iff.mp hvalue
    exact (close_configured value).trans (hlast value hresult)

theorem getCacerts_configured {result : Traced Event (ClientCtx × EstError × Option Nat)}
    (h : GotCacerts env net ctx result) :
    SentAs ctx result.events ∧
      ∀ last, result.value = some last → configured last.1 = configured ctx := by
  cases h with
  | undefined => exact ⟨sentAs_nil, fun _ h => nomatch h⟩
  | refused =>
    refine ⟨sentAs_nil, ?_⟩
    rintro last ⟨⟩
    rfl
  | sent t hinit hctx =>
    have ht : configured t.ctx = configured ctx := by
      rw [hctx]
      rfl
    refine ⟨sentAs_cons ht sentAs_nil, ?_⟩
    intro last hlast
    obtain ⟨⟨ctx', answer⟩, hanswer, rfl⟩ := Option.map_eq_some_iff.mp hlast
    have hctx' := (answer_configured hanswer).trans ht
    cases answer with
    | error rv => exact hctx'
    | ok buffers =>
      obtain ⟨stored, hstored⟩ := storeCacerts_ctx env ctx' buffers.cert
      change configured (storeCacerts env ctx' buffers.cert).1 = _
      rw [hstored]
      exact hctx'

/-- Only the requirement of the challenge password may have changed. -/
theorem getCsrattrs_configured {result : Traced Event (ClientCtx × Except EstError (Option Bytes))}
    (h : GotCsrattrs env net ctx result) :
    SentAs ctx result.events ∧ ∀ last, result.value = some last →
      configured last.1 = configured { ctx with csrPopRequired := last.1.csrPopRequired } := by
  cases h with
  | undefined => exact ⟨sentAs_nil, fun _ h => nomatch h⟩
  | refused =>
    refine ⟨sentAs_nil, ?_⟩
    rintro last ⟨⟩
    rfl
  | sent t hctx =>
    have ht : configured t.ctx = configured ctx := by
      rw [hctx]
      rfl
    refine ⟨sentAs_cons ht sentAs_nil, ?_⟩
    intro last hlast
    obtain ⟨⟨ctx', answer⟩, hanswer, rfl⟩ := Option.map_eq_some_iff.mp hlast
    have hctx' := (answer_configured hanswer).trans ht
    have hpop (pop : Bool) : configured { ctx' with csrPopRequired := pop } =
        configured { ctx with csrPopRequired := pop } :=
      congrArg (fun c => { c with csrPopRequired := pop }) hctx'
    cases answer with
    | error rv => exact hpop ctx'.csrPopRequired
    | ok buffers =>
      obtain ⟨key, cert⟩ := buffers
      cases cert with
      | none => exact hpop ctx'.csrPopRequired
      | some text =>
        obtain ⟨stored, hstored⟩ := storeCsrattrs_ctx env ctx' text
        change configured (storeCsrattrs env ctx' text).1 =
          configured { ctx with csrPopRequired := (storeCsrattrs env ctx' text).1.csrPopRequired }
        rw [hstored]
        exact hpop _

end Configuration

section Provisioning

inductive CopiedCacerts (ctx : ClientCtx) :
    Traced Event (ClientCtx × Except EstError Bytes) → Prop
  | refused (rv : EstError) (hrv : rv ≠ .none) : CopiedCacerts ctx ⟨[], some (ctx, .error rv)⟩
  | copied (certs : Bytes) : CopiedCacerts ctx
      ⟨[.copiedCacerts], some ({ ctx with estClientInitialized := false }, .ok certs)⟩

theorem copyCacerts_cases (ctx : ClientCtx) : CopiedCacerts ctx (estClientCopyCacerts ctx) := by
  unfold estClientCopyCacerts
  split
  · exact .refused .clientNotInitialized nofun
  · split
    · exact .refused .noCertificate nofun
    · rename_i certs _
      exact .copied certs

inductive ReloadedTrust (ctx : ClientCtx) : Traced Event (ClientCtx × EstError) → Prop
  | failed (rv : EstError) (hrv : rv ≠ .none) : ReloadedTrust ctx ⟨[], some (ctx, rv)⟩
  | reloaded (pem : Bytes) : ReloadedTrust ctx
      ⟨[.reloadedTrust],
        some ({ ctx with trustedCerts := pem, estClientInitialized := true }, .none)⟩

theorem reloadTrust_cases (env : ClientEnv) (ctx : ClientCtx) (certs : Bytes) :
    ReloadedTrust ctx (reloadTrust env ctx certs) := by
  unfold reloadTrust
  split
  · exact .failed .pemRead nofun
  · rename_i pem _
    split
    · rename_i hload
      exact .failed _ hload
    · exact .reloaded pem

/-- The second half of a provision call. -/
inductive ProvisionEnroll (env : ClientEnv) (net : Network) (ctx : ClientCtx) :
    Traced Event (ClientCtx × Provisioned) → Prop
  | stopped {attrs : Traced Event (ClientCtx × Except EstError (Option Bytes))}
      (hattrs : GotCsrattrs env net ctx attrs) (result : Option (ClientCtx × Provisioned))
      (hresult : ∀ last provisioned, result = some (last, provisioned) →
        provisioned.rv ≠ .none ∧ ∃ answer, attrs.value = some (last, answer)) :
      ProvisionEnroll env net ctx ⟨attrs.events, result⟩
  | enrolled {attrs : Traced Event (ClientCtx × Except EstError (Option Bytes))}
      (hattrs : GotCsrattrs env net ctx attrs) (mid : ClientCtx)
      (answer : Except EstError (Option Bytes)) (hvalue : attrs.value = some (mid, answer))
      (hanswer : attrsCode answer = .none ∨ attrsCode answer = .httpNoContent)
      {result : Traced Event (ClientCtx × Enrolled)}
      (hresult : EnrollCall env (later net) mid .simpleEnroll result) (caCertLen : Option Nat) :
      ProvisionEnroll env net ctx ⟨attrs.events ++ result.events,
        result.value.map fun (last, enrolled) => (last, ⟨enrolled.rv, enrolled.pkcs7Len, caCertLen⟩)⟩

theorem provisionEnroll_cases (env : ClientEnv) (net : Network) (ctx : ClientCtx) (cn : Bytes)
    (newPublicKey : Option EvpPkey) (caCertLen : Option Nat) :
    ProvisionEnroll env net ctx (provisionEnroll env net ctx cn newPublicKey caCertLen) := by
  have hattrs := getCsrattrs_cases env net ctx
  unfold provisionEnroll
  generalize estClientGetCsrattrs env net ctx = attrs at hattrs
  cases hvalue : attrs.value with
  | none =>
    rw [bind_of_value_none hvalue]
    exact .stopped hattrs none fun _ _ h => nomatch h
  | some value =>
    obtain ⟨mid, answer⟩ := value
    rw [bind_of_value_some hvalue]
    dsimp only
    split
    · rename_i hrv
      rw [pure_events, List.append_nil, pure_value]
      refine .stopped hattrs _ ?_
      rintro last provisioned ⟨⟩
      exact ⟨hrv.1, answer, hvalue⟩
    · rename_i hrv
      have hanswer : attrsCode answer = .none ∨ attrsCode answer = .httpNoContent := by
        by_contra hnot
        exact hrv (not_or.mp hnot)
      convert ProvisionEnroll.enrolled hattrs mid answer hvalue hanswer
        (enrollInternal_cases env (later net) mid cn newPublicKey .simpleEnroll) caCertLen using 1
      exact congrArg (fun t : Traced Event (ClientCtx × Provisioned) =>
        (⟨attrs.events ++ t.events, t.value⟩ : Traced Event (ClientCtx × Provisioned)))
        (bind_pure_eq _ _)

/-- A whole provision call. -/
inductive ProvisionCall (env : ClientEnv) (net : Network) (ctx : ClientCtx) :
    Traced Event (ClientCtx × Provisioned) → Prop
  | refused (rv : EstError) (hrv : rv ≠ .none) :
      ProvisionCall env net ctx ⟨[], some (ctx, ⟨rv, none, none⟩)⟩
  | stopped {certs : Traced Event (ClientCtx × EstError × Option Nat)}
      (hcerts : GotCacerts env net ctx certs) (result : Option (ClientCtx × Provisioned))
      (hresult : ∀ last provisioned, result = some (last, provisioned) →
        provisioned.rv ≠ .none ∧ ∃ rv len, certs.value = some (last, rv, len)) :
      ProvisionCall env net ctx ⟨certs.events, result⟩
  | copied {certs : Traced Event (ClientCtx × EstError × Option Nat)}
      (hcerts : GotCacerts env net ctx certs) (mid : ClientCtx) (len : Option Nat)
      (hvalue : certs.value = some (mid, .none, len)) (rv : EstError) (hrv : rv ≠ .none) :
      ProvisionCall env net ctx ⟨certs.events ++ [.copiedCacerts],
        some ({ mid with estClientInitialized := false }, ⟨rv, none, len⟩)⟩
  | reloaded {certs : Traced Event (ClientCtx × EstError × Option Nat)}
      (hcerts : GotCacerts env net ctx certs) (mid : ClientCtx) (len : Option Nat)
      (hvalue : certs.value = some (mid, .none, len)) (pem : Bytes)
      {result : Traced Event (ClientCtx × Provisioned)}
      (hresult : ProvisionEnroll env (later net)
        { mid with trustedCerts := pem, estClientInitialized := true } result) :
      ProvisionCall env net ctx
        ⟨certs.events ++ .copiedCacerts :: .reloadedTrust :: result.events, result.value⟩

theorem provisionCert_cases (env : ClientEnv) (net : Network) (ctx : ClientCtx) (cn : Bytes)
    (newPublicKey : Option EvpPkey) :
    ProvisionCall env net ctx (estClientProvisionCert env net ctx cn newPublicKey) := by
  unfold estClientProvisionCert
  split
  · exact .refused .clientNotInitialized nofun
  · split
    · exact .refused .noKey nofun
    · have hcerts := getCacerts_cases env net ctx
      generalize estClientGetCacerts env net ctx = certs at hcerts
      cases hvalue : certs.value with
      | none =>
        rw [bind_of_value_none hvalue]
        exact .stopped hcerts none fun _ _ h => nomatch h
      | some value =>
        obtain ⟨mid, rv, len⟩ := value
        rw [bind_of_value_some hvalue]
        dsimp only
        split
        · rename_i hrv
          rw [pure_events, List.append_nil, pure_value]
          refine .stopped hcerts _ ?_
          rintro last provisioned ⟨⟩
          exact ⟨hrv, rv, len, hvalue⟩
        · rename_i hrv
          have hcopy := copyCacerts_cases mid
          generalize estClientCopyCacerts mid = copy at hcopy
          cases hcopy with
          | refused error herror =>
            rw [mk_some_bind, pure_events, pure_value, List.append_nil, List.append_nil]
            refine .stopped hcerts _ ?_
            rintro last provisioned ⟨⟩
            exact ⟨herror, rv, len, hvalue⟩
          | copied stored =>
            rw [not_ne_iff.mp hrv] at hvalue
            rw [mk_some_bind]
            have hreload := reloadTrust_cases env { mid with estClientInitialized := false } stored
            dsimp only
            generalize reloadTrust env { mid with estClientInitialized := false } stored = reload
              at hreload
            cases hreload with
            | failed error herror =>
              rw [mk_some_bind, if_pos herror, pure_events, pure_value, List.append_nil,
                List.append_nil]
              exact .copied hcerts mid len hvalue error herror
            | reloaded pem =>
              rw [mk_some_bind, if_neg (not_not.mpr rfl)]
              exact .reloaded hcerts mid len hvalue pem
                (provisionEnroll_cases env (later net) _ cn newPublicKey len)

end Provisioning

section Calls

/-- A server that the client takes. -/
def AcceptsServer (ctx : ClientCtx) (server : Bytes) (port : Int) : Prop :=
  ctx.estClientInitialized = true ∧ 0 < port ∧ port ≤ 65535 ∧ server.length ≤ estMaxServernameLen

/-- What the calls that only set something up leave alone. -/
structure Adjusted (call : Call) (ctx ctx' : ClientCtx) : Prop where
  initialized : ctx'.estClientInitialized = ctx.estClientInitialized
  csrPopRequired : ctx'.csrPopRequired = ctx.csrPopRequired
  enrolledClientCert : ctx'.enrolledClientCert = ctx.enrolledClientCert
  serverGenClientPrivKey : ctx'.serverGenClientPrivKey = ctx.serverGenClientPrivKey
  server : ctx'.estServer = ctx.estServer ∧ ctx'.estPortNum = ctx.estPortNum ∨
    ∃ server port pathSegment, call = .setServer (some server) port pathSegment ∧
      AcceptsServer ctx server port ∧ ctx'.estServer = strcpyS estMaxServernameLen server [] ∧
        ctx'.estPortNum = port.toNat

theorem setUidPw_ctx (ctx : ClientCtx) (uid pwd : Option Bytes) : ∃ user password,
    (estClientSetUidPw ctx uid pwd).1 = { ctx with userid := user, password := password } := by
  unfold estClientSetUidPw
  split
  · exact ⟨ctx.userid, ctx.password, rfl⟩
  · exact ⟨ctx.userid, ctx.password, rfl⟩
  · exact ⟨ctx.userid, ctx.password, rfl⟩
  · dsimp only
    split_ifs
    · exact ⟨ctx.userid, ctx.password, rfl⟩
    · exact ⟨_, ctx.password, rfl⟩
    · exact ⟨_, _, rfl⟩

theorem setAuth_adjusted (ctx : ClientCtx) (uid pwd : Option Bytes) (cert : Option X509)
    (key : Option EvpPkey) :
    Adjusted (.setAuth uid pwd cert key) ctx (estClientSetAuth env ctx uid pwd cert key).1 := by
  obtain ⟨user, password, hctx⟩ := setUidPw_ctx ctx uid pwd
  unfold estClientSetAuth
  generalize estClientSetUidPw ctx uid pwd = result at hctx
  split
  · dsimp only at hctx ⊢
    subst hctx
    split <;> exact ⟨rfl, rfl, rfl, rfl, Or.inl ⟨rfl, rfl⟩⟩
  · dsimp only at hctx ⊢
    subst hctx
    exact ⟨rfl, rfl, rfl, rfl, Or.inl ⟨rfl, rfl⟩⟩

theorem setServer_adjusted (ctx : ClientCtx) (server : Option Bytes) (port : Int)
    (pathSegment : Option Bytes) :
    Adjusted (.setServer server port pathSegment) ctx
      (estClientSetServer env ctx server port pathSegment).1 := by
  have hkept : Adjusted (.setServer server port pathSegment) ctx ctx :=
    ⟨rfl, rfl, rfl, rfl, Or.inl ⟨rfl, rfl⟩⟩
  unfold estClientSetServer
  split
  · exact hkept
  · rename_i hinit
    split
    · exact hkept
    · rename_i name
      split_ifs with hport hlength
      · exact hkept
      · exact hkept
      · have haccepted : AcceptsServer ctx name port :=
          ⟨not_not.mp hinit, by omega, by omega, Nat.le_of_not_lt hlength⟩
        have htaken (segment : Option Bytes) : Adjusted (.setServer (some name) port pathSegment) ctx
            { ctx with
              estServer := strcpyS estMaxServernameLen name []
              estPortNum := port.toNat
              uriPathSegment := segment } :=
          ⟨rfl, rfl, rfl, rfl, Or.inr ⟨name, port, pathSegment, rfl, haccepted, rfl, rfl⟩⟩
        dsimp only
        split
        · exact htaken ctx.uriPathSegment
        · rename_i segment
          split_ifs
          · exact htaken ctx.uriPathSegment
          · exact htaken ctx.uriPathSegment
          · exact htaken (some segment)

/-- The operation of an enroll call. -/
def enrollOperation : Call → Option EstOperation
  | .enroll _ _ => some .simpleEnroll
  | .serverKeygenEnroll _ _ => some .serverKeygen
  | .reenroll _ _ => some .simpleReenroll
  | .enrollCsr _ _ => some .simpleEnroll
  | .serverKeygenEnrollCsr _ _ => some .serverKeygen
  | _ => none

/-- The calls that only set something up. -/
def isSetting : Call → Bool
  | .setAuth _ _ _ _ | .setAuthCredCb _ | .enableBasicAuthHint => true
  | .setServer _ _ _ | .forcePop | .unforcePop => true
  | _ => false

/-- What a call can do. -/
inductive Invoked (env : ClientEnv) (net : Network) (ctx : ClientCtx) :
    Call → Traced Event (ClientCtx × Reply) → Prop
  | settings (call : Call) (ctx' : ClientCtx) (rv : EstError) (h : Adjusted call ctx ctx')
      (hcall : isSetting call = true) :
      Invoked env net ctx call ⟨[], some (ctx', .code rv)⟩
  | getCacerts {result : Traced Event (ClientCtx × EstError × Option Nat)}
      (h : GotCacerts env net ctx result) :
      Invoked env net ctx .getCacerts ⟨result.events,
        result.value.map fun (ctx, rv, len) => (ctx, { Reply.code rv with caCertLen := len })⟩
  | copyCacerts {result : Traced Event (ClientCtx × Except EstError Bytes)}
      (h : CopiedCacerts ctx result) :
      Invoked env net ctx .copyCacerts ⟨result.events,
        result.value.map fun (ctx, answer) => (ctx, .handedOut (answer.map some))⟩
  | getCsrattrs {result : Traced Event (ClientCtx × Except EstError (Option Bytes))}
      (h : GotCsrattrs env net ctx result) :
      Invoked env net ctx .getCsrattrs ⟨result.events,
        result.value.map fun (ctx, answer) => (ctx, .handedOut answer)⟩
  | enroll (call : Call) (op : EstOperation) (hop : enrollOperation call = some op)
      {result : Traced Event (ClientCtx × Enrolled)} (h : EnrollCall env net ctx op result) :
      Invoked env net ctx call ⟨result.events,
        result.value.map fun (ctx, enrolled) => (ctx, .enrolled enrolled)⟩
  | uncopied (cert : Option X509) (privKey : Option EvpPkey) (h : Uncopied env ctx cert privKey) :
      Invoked env net ctx (.reenroll cert privKey) ⟨[], some (ctx, .enrolled (failed .none))⟩
  | provisionCert (cn : Bytes) (newPublicKey : Option EvpPkey)
      {result : Traced Event (ClientCtx × Provisioned)} (h : ProvisionCall env net ctx result) :
      Invoked env net ctx (.provisionCert cn newPublicKey) ⟨result.events,
        result.value.map fun (ctx, provisioned) => (ctx, { Reply.code provisioned.rv with
          pkcs7Len := provisioned.pkcs7Len
          caCertLen := provisioned.caCertLen })⟩
  | copyEnrolledCert :
      Invoked env net ctx .copyEnrolledCert ⟨[], some ((estClientCopyEnrolledCert ctx).1,
        .handedOut ((estClientCopyEnrolledCert ctx).2.map some))⟩
  | copyServerGeneratedKey :
      Invoked env net ctx .copyServerGeneratedKey
        ⟨[], some ((estClientCopyServerGeneratedKey ctx).1,
          .handedOut ((estClientCopyServerGeneratedKey ctx).2.map some))⟩

theorem invoke_cases (env : ClientEnv) (net : Network) (ctx : ClientCtx) (call : Call) :
    Invoked env net ctx call (invoke env net ctx call) := by
  cases call with
  | setAuth uid pwd cert key =>
    exact .settings _ _ _ (setAuth_adjusted ctx uid pwd cert key) rfl
  | setServer server port pathSegment =>
    exact .settings _ _ _ (setServer_adjusted ctx server port pathSegment) rfl
  | setAuthCredCb | enableBasicAuthHint | forcePop | unforcePop =>
    exact .settings _ _ _ ⟨rfl, rfl, rfl, rfl, Or.inl ⟨rfl, rfl⟩⟩ rfl
  | getCacerts =>
    rw [invoke, bind_pure_eq]
    exact .getCacerts (getCacerts_cases env net ctx)
  | copyCacerts =>
    rw [invoke, bind_pure_eq]
    exact .copyCacerts (copyCacerts_cases ctx)
  | getCsrattrs =>
    rw [invoke, bind_pure_eq]
    exact .getCsrattrs (getCsrattrs_cases env net ctx)
  | enroll cn newPublicKey =>
    rw [invoke, bind_pure_eq]
    exact .enroll _ _ rfl (enrollInternal_cases env net ctx cn newPublicKey _)
  | serverKeygenEnroll cn newPublicKey =>
    rw [invoke, bind_pure_eq]
    exact .enroll _ _ rfl (enrollInternal_cases env net ctx cn newPublicKey _)
  | reenroll cert privKey =>
    rw [invoke, bind_pure_eq]
    obtain hcall | ⟨huncopied, hnothing⟩ := reenroll_cases env net ctx cert privKey
    · exact .enroll _ _ rfl hcall
    · rw [hnothing]
      exact .uncopied cert privKey huncopied
  | enrollCsr csr privKey =>
    rw [invoke, bind_pure_eq]
    exact .enroll _ _ rfl (enrollCsrInternal_cases env net ctx csr privKey _)
  | serverKeygenEnrollCsr csr privKey =>
    rw [invoke, bind_pure_eq]
    exact .enroll _ _ rfl (serverKeygenEnrollCsr_cases env net ctx csr privKey)
  | provisionCert cn newPublicKey =>
    rw [invoke, bind_pure_eq]
    exact .provisionCert cn newPublicKey (provisionCert_cases env net ctx cn newPublicKey)
  | copyEnrolledCert => exact .copyEnrolledCert
  | copyServerGeneratedKey => exact .copyServerGeneratedKey

end Calls

end LibEst.Client.ApiCases
