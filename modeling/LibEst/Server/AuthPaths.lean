import LibEst.Server.EnrollAuth

/-! The ways through `est_enroll_auth`, said once. What a verdict rests on is
read off from them. -/
namespace LibEst.Server.EnrollAuth

open LibEst.Basic LibEst.OpenSsl LibEst.Base64 LibEst.Lib.ByteString
open LibEst.Server.AuthHeader LibEst.Server.Context LibEst.Server.EnhancedCertAuth

variable (C : Crypto) (ctx : EstCtx) (conn : MgConnection) (ssl : Ssl) (pathSeg : Option Bytes)
  (enrollReq : EnrollReqType) (csrBuf : Bytes)

/-- What TLS says of a peer that may go on. -/
inductive TlsVerdict (ssl : Ssl) : Option X509 → AuthState → Prop
  | cert (cert : X509) (hverified : Verified ssl cert) : TlsVerdict ssl (some cert) .certAuth
  | srp (hpeer : ssl.peerCert = none) (hsrp : ssl.srpUsername.isSome = true) :
      TlsVerdict ssl none .srpAuth
  | nothing (hpeer : ssl.peerCert = none) (hsrp : ssl.srpUsername = none) :
      TlsVerdict ssl none .unauthorized

/-- The result of a path on which nothing is parsed and nobody is asked. -/
def asIs (conn : MgConnection) (state : AuthState) : AuthResult where
  state := state
  hdrResult := .ecaErr
  calls := []
  csr := none
  conn := conn

inductive AuthPath : AuthResult → Prop
  | rejected (cert : X509) (hpeer : ssl.peerCert = some cert) (hfailed : tlsVerified ssl = false) :
      AuthPath (asIs conn .unauthorized)
  | tlsOnly (peer : Option X509) (rv : AuthState) (hmode : ctx.transportMode = .http)
      (htls : TlsVerdict ssl peer rv)
      (hunasked : ∀ cb, ctx.estHttpAuthCb = some cb →
        rv ≠ .unauthorized ∧ ctx.requireHttpAuth ≠ .required) :
      AuthPath (asIs conn rv)
  | http (cb : AuthCall → Bool) (peer : Option X509) (rv : AuthState)
      (hmode : ctx.transportMode = .http) (hcb : ctx.estHttpAuthCb = some cb)
      (htls : TlsVerdict ssl peer rv)
      (hasked : rv = .unauthorized ∨ ctx.requireHttpAuth = .required) :
      AuthPath (httpStage cb conn peer pathSeg enrollReq rv
        (credentials C ctx conn ssl peer rv csrBuf))
  | coapNoCert (hmode : ctx.transportMode = .coap) (hpeer : ssl.peerCert = none) :
      AuthPath (asIs conn .unauthorized)
  | coapCert (cert : X509) (hmode : ctx.transportMode = .coap) (hverified : Verified ssl cert)
      (heca : ctx.enhancedCertAuthEnabled = false) : AuthPath (asIs conn .certAuth)
  | coapNoCsr (hmode : ctx.transportMode = .coap) : AuthPath (asIs conn .csrParseFail)
  | coapEca (cert : X509) (r : AuthResult) (hmode : ctx.transportMode = .coap)
      (hverified : Verified ssl cert) (heca : ctx.enhancedCertAuthEnabled = true)
      (hr : coapStage ctx.estHttpAuthCb conn cert pathSeg
        (handleEnhancedCertAuth C ctx ssl cert csrBuf estCreateAh ctx.enhancedCertAuthCsrCheck) =
          some r) : AuthPath r

variable {C ctx conn ssl pathSeg enrollReq csrBuf} {r : AuthResult}

theorem tlsVerdict_cases (ssl : Ssl) :
    (∃ cert, ssl.peerCert = some cert ∧ tlsVerified ssl = false ∧
      checkForTlsCertAuth ssl = (false, none, .unauthorized)) ∨
    ∃ peer rv state, checkForTlsCertAuth ssl = (true, peer, state) ∧
      (if state ≠ .certAuth ∧ ssl.srpUsername.isSome then .srpAuth else state) = rv ∧
      TlsVerdict ssl peer rv := by
  rcases checkForTlsCertAuth_cases ssl with ⟨cert, hverified, htls⟩ | ⟨hpeer, htls⟩ | hfailed
  · exact Or.inr ⟨some cert, .certAuth, .certAuth, htls, by simp, .cert cert hverified⟩
  · cases hsrp : ssl.srpUsername with
    | none => exact Or.inr ⟨none, .unauthorized, .unauthorized, htls, by simp, .nothing hpeer hsrp⟩
    | some user =>
      exact Or.inr ⟨none, .srpAuth, .unauthorized, htls, by simp, .srp hpeer (by rw [hsrp]; rfl)⟩
  · exact Or.inl hfailed

theorem estEnrollAuth_path
    (h : estEnrollAuth C ctx conn ssl pathSeg enrollReq csrBuf = some r) :
    AuthPath C ctx conn ssl pathSeg enrollReq csrBuf r := by
  unfold estEnrollAuth at h
  rcases tlsVerdict_cases ssl with ⟨cert, hpeer, hfailed, htls⟩ | ⟨peer, rv, state, htls, hrv, hverdict⟩
  · simp only [htls, Option.some.injEq] at h
    rw [← h]
    exact .rejected cert hpeer hfailed
  · simp only [htls, hrv] at h
    cases hmode : ctx.transportMode with
    | http =>
      simp only [hmode] at h
      cases hcb : ctx.estHttpAuthCb with
      | none =>
        simp only [hcb, Option.some.injEq] at h
        rw [← h]
        exact .tlsOnly peer rv hmode hverdict (by simp [hcb])
      | some cb =>
        simp only [hcb] at h
        split at h
        · rename_i hasked
          rw [Option.some.injEq] at h
          rw [← h]
          exact .http cb peer rv hmode hcb hverdict hasked
        · rename_i hunasked
          rw [Option.some.injEq] at h
          rw [← h]
          exact .tlsOnly peer rv hmode hverdict fun _ _ => not_or.mp hunasked
    | coap =>
      simp only [hmode] at h
      cases hverdict with
      | srp hpeer _ | nothing hpeer _ =>
        simp only [Option.some.injEq] at h
        rw [← h]
        exact .coapNoCert hmode hpeer
      | cert cert hverified =>
        simp only at h
        split at h
        · rename_i heca
          split at h
          · rw [Option.some.injEq] at h
            rw [← h]
            exact .coapNoCsr hmode
          · exact .coapEca cert r hmode hverified heca h
        · rename_i heca
          rw [Option.some.injEq] at h
          rw [← h]
          exact .coapCert cert hmode hverified (Bool.eq_false_iff.mpr heca)

section Csr

theorem handleEnhancedCertAuth_csr {peer : X509} {ah : AuthHdr} {csrCheck : Bool} {csr : X509Req}
    (h : (handleEnhancedCertAuth C ctx ssl peer csrBuf ah csrCheck).csr = some csr) :
    estServerParseCsr C csrBuf = some csr := by
  unfold handleEnhancedCertAuth at h
  split at h
  · cases h
  · simp only at h
    split at h
    · have hchecked : ∀ mfgIndex, (checkedCsr C ctx peer csrBuf csrCheck mfgIndex).2 = some csr →
          estServerParseCsr C csrBuf = some csr := by
        intro mfgIndex hcsr
        unfold checkedCsr at hcsr
        split at hcsr
        · split at hcsr
          · cases hcsr
          · rename_i parsed hparsed
            rw [hparsed]
            exact hcsr
        · cases hcsr
      split at h
      · exact hchecked _ h
      · exact hchecked _ h
    · cases h

theorem httpStage_csr {cb : AuthCall → Bool} {peer : Option X509} {rv : AuthState}
    {creds : Credentials} :
    (httpStage cb conn peer pathSeg enrollReq rv creds).csr = creds.csr := by
  unfold httpStage
  cases creds.result <;> rfl

theorem credentials_csr {peer : Option X509} {rv : AuthState} {csr : X509Req}
    (h : (credentials C ctx conn ssl peer rv csrBuf).csr = some csr) :
    estServerParseCsr C csrBuf = some csr := by
  unfold credentials at h
  split at h
  · split at h
    · exact handleEnhancedCertAuth_csr h
    · cases h
  · cases h

theorem coapStage_csr {cb : Option (AuthCall → Bool)} {cert : X509} {out : EcaOutcome}
    (h : coapStage cb conn cert pathSeg out = some r) : r.csr = out.csr ∧ r.conn = conn := by
  unfold coapStage at h
  cases hresult : out.result <;> simp only [hresult] at h
  case good =>
    cases cb with
    | none => cases h
    | some cb =>
      rw [Option.map_some, Option.some.injEq] at h
      rw [← h]
      exact ⟨rfl, rfl⟩
  all_goals
    rw [Option.some.injEq] at h
    rw [← h]
    exact ⟨rfl, rfl⟩

/-- A request that is handed back parsed is the body of this very request. -/
theorem AuthPath.parsed (h : AuthPath C ctx conn ssl pathSeg enrollReq csrBuf r) {csr : X509Req}
    (hcsr : r.csr = some csr) : estServerParseCsr C csrBuf = some csr := by
  cases h with
  | http cb peer rv hmode hcb htls hasked =>
    rw [httpStage_csr] at hcsr
    exact credentials_csr hcsr
  | coapEca cert r hmode hverified heca hr =>
    rw [(coapStage_csr hr).1] at hcsr
    exact handleEnhancedCertAuth_csr hcsr
  | rejected | tlsOnly | coapNoCert | coapCert | coapNoCsr => cases hcsr

end Csr

section Evidence

theorem coapStage_authorized {cb : Option (AuthCall → Bool)} {cert : X509} {out : EcaOutcome}
    (h : coapStage cb conn cert pathSeg out = some r) (hauthorized : r.state.authorized = true) :
    r.state = .httpAuth ∧ out.result = .good ∧ ∃ accept, cb = some accept ∧
      r.calls = [⟨out.ah, some cert, pathSeg⟩] ∧ accept ⟨out.ah, some cert, pathSeg⟩ = true := by
  unfold coapStage at h
  cases hresult : out.result <;> simp only [hresult] at h
  case good =>
    cases cb with
    | none => cases h
    | some cb =>
      rw [Option.map_some, Option.some.injEq] at h
      subst h
      cases haccept : cb ⟨out.ah, some cert, pathSeg⟩ with
      | true =>
        refine ⟨?_, rfl, cb, rfl, rfl, haccept⟩
        simp [askApplication, haccept]
      | false =>
        simp only [askApplication, haccept] at hauthorized
        cases hauthorized
  all_goals
    rw [Option.some.injEq] at h
    rw [← h] at hauthorized
    cases hauthorized

/-- The certificate may be used for the check of a request: its chain tells the
manufacturer, and the check passes. -/
def CsrCheckPassed (C : Crypto) (ctx : EstCtx) (ssl : Ssl) (cert : X509) (csr : X509Req) : Prop :=
  ∃ chain, ssl.peerChain = some chain ∧
    performEnhancedCertAuthCsrCheck ctx cert csr (estEnhcdCertAuthGetMfg C cert chain ctx).2 = .good

/-- The header names the peer by the subject field of its certificate. -/
def IdentityOf (C : Crypto) (ctx : EstCtx) (ssl : Ssl) (cert : X509) (ah : AuthHdr) : Prop :=
  ∃ chain field, ssl.peerChain = some chain ∧
    subjectField cert.subject
      (identityNid ctx (estEnhcdCertAuthGetMfg C cert chain ctx).2) = some field ∧
    ah.mode = .basic ∧ ah.user = some (strndup field (maxUidpwd + 1)) ∧
    ah.pwd = some (strndup ctx.enhcdCertAuthPwd (maxUidpwd + 1))

/-- The application accepted these credentials in this very call. -/
def Accepted (ctx : EstCtx) (r : AuthResult) (call : AuthCall) : Prop :=
  ∃ cb, ctx.estHttpAuthCb = some cb ∧ r.calls = [call] ∧ cb call = true

variable (C ctx ssl csrBuf r)

/-- What each verdict rests on. -/
structure Evidence : Prop where
  cert : r.state = .certAuth → ∃ cert, Verified ssl cert
  srp : r.state = .srpAuth → ssl.srpUsername.isSome = true ∧ ctx.transportMode = .http
  http : r.state = .httpAuth → ∃ call, Accepted ctx r call
  rejected : ∀ cert, ssl.peerCert = some cert → tlsVerified ssl = false →
    r.state.authorized = false ∧ r.calls = []
  coap : ctx.transportMode = .coap → r.state.authorized = true →
    ∃ cert, Verified ssl cert ∧ (ctx.enhancedCertAuthEnabled = true →
      (∃ call, Accepted ctx r call ∧ IdentityOf C ctx ssl cert call.ah) ∧
      (ctx.enhancedCertAuthCsrCheck = true →
        ∃ csr, estServerParseCsr C csrBuf = some csr ∧ CsrCheckPassed C ctx ssl cert csr))

variable {C ctx ssl csrBuf r}

/-- Nobody gets to a stage behind TLS with a certificate that TLS refused. -/
theorem TlsVerdict.not_refused {peer : Option X509} {rv : AuthState} (h : TlsVerdict ssl peer rv)
    {cert : X509} (hpeer : ssl.peerCert = some cert) (hfailed : tlsVerified ssl = false) : False := by
  cases h with
  | cert other hverified =>
    rw [hverified.2] at hfailed
    cases hfailed
  | srp hnone _ | nothing hnone _ =>
    rw [hpeer] at hnone
    cases hnone

theorem asIs_evidence {rv : AuthState}
    (hcert : rv = .certAuth → ∃ cert, Verified ssl cert)
    (hsrp : rv = .srpAuth → ssl.srpUsername.isSome = true ∧ ctx.transportMode = .http)
    (hhttp : rv ≠ .httpAuth)
    (hrefused : ∀ cert, ssl.peerCert = some cert → tlsVerified ssl = false →
      rv.authorized = false)
    (hcoap : ctx.transportMode = .coap → rv.authorized = true →
      rv = .certAuth ∧ ctx.enhancedCertAuthEnabled = false) :
    Evidence C ctx ssl csrBuf (asIs conn rv) where
  cert := hcert
  srp := hsrp
  http := fun h => absurd h hhttp
  rejected := fun cert hpeer hfailed => ⟨hrefused cert hpeer hfailed, rfl⟩
  coap := by
    intro hmode hauthorized
    obtain ⟨hrv, heca⟩ := hcoap hmode hauthorized
    obtain ⟨cert, hverified⟩ := hcert hrv
    refine ⟨cert, hverified, ?_⟩
    intro hon
    rw [heca] at hon
    cases hon

theorem AuthPath.evidence (h : AuthPath C ctx conn ssl pathSeg enrollReq csrBuf r) :
    Evidence C ctx ssl csrBuf r := by
  cases h with
  | rejected cert hpeer hfailed =>
    exact asIs_evidence (by simp) (by simp) (by simp) (fun _ _ _ => rfl) fun _ h => by cases h
  | tlsOnly peer rv hmode htls hunasked =>
    apply asIs_evidence
    · rintro rfl
      cases htls with
      | cert cert hverified => exact ⟨cert, hverified⟩
    · rintro rfl
      cases htls with
      | srp hpeer hsrp => exact ⟨hsrp, hmode⟩
    · rintro rfl
      cases htls
    · intro cert hpeer hfailed
      exact (htls.not_refused hpeer hfailed).elim
    · intro hcoap
      rw [hmode] at hcoap
      cases hcoap
  | http cb peer rv hmode hcb htls hasked =>
    have hways : ∀ {state : AuthState}, state.authorized = true →
        (httpStage cb conn peer pathSeg enrollReq rv
          (credentials C ctx conn ssl peer rv csrBuf)).state = state →
        (state = .httpAuth ∧ ∃ call, Accepted ctx (httpStage cb conn peer pathSeg enrollReq rv
          (credentials C ctx conn ssl peer rv csrBuf)) call) ∨
        (state = .certAuth ∧ rv = .certAuth) := by
      rintro state hauthorized rfl
      rcases httpStage_authorized hauthorized with
        ⟨-, haccept, hstate, hcalls⟩ | ⟨-, -, hrv, hstate, -⟩
      · exact Or.inl ⟨hstate, _, cb, hcb, hcalls, haccept⟩
      · exact Or.inr ⟨hstate, hrv⟩
    refine ⟨?_, ?_, ?_, ?_, ?_⟩
    · intro hstate
      rcases hways rfl hstate with ⟨hother, -⟩ | ⟨-, rfl⟩
      · cases hother
      · cases htls with
        | cert cert hverified => exact ⟨cert, hverified⟩
    · intro hstate
      rcases hways rfl hstate with ⟨hother, -⟩ | ⟨hother, -⟩
      · cases hother
      · cases hother
    · intro hstate
      rcases hways rfl hstate with ⟨-, haccepted⟩ | ⟨hother, -⟩
      · exact haccepted
      · cases hother
    · intro cert hpeer hfailed
      exact (htls.not_refused hpeer hfailed).elim
    · intro hcoap
      rw [hmode] at hcoap
      cases hcoap
  | coapNoCert hmode hpeer =>
    exact asIs_evidence (by simp) (by simp) (by simp) (fun _ _ _ => rfl) fun _ h => by cases h
  | coapCert cert hmode hverified heca =>
    refine asIs_evidence (fun _ => ⟨cert, hverified⟩) (by simp) (by simp) ?_ fun _ _ => ⟨rfl, heca⟩
    intro other _ hfailed
    rw [hverified.2] at hfailed
    cases hfailed
  | coapNoCsr hmode =>
    exact asIs_evidence (by simp) (by simp) (by simp) (fun _ _ _ => rfl) fun _ h => by cases h
  | coapEca cert r hmode hverified heca hr =>
    have hways : r.state.authorized = true → r.state = .httpAuth ∧
        (∃ call, Accepted ctx r call ∧ IdentityOf C ctx ssl cert call.ah) ∧
        (ctx.enhancedCertAuthCsrCheck = true →
          ∃ csr, estServerParseCsr C csrBuf = some csr ∧ CsrCheckPassed C ctx ssl cert csr) := by
      intro hauthorized
      obtain ⟨hstate, hgood, cb, hcb, hcalls, haccept⟩ := coapStage_authorized hr hauthorized
      obtain ⟨chain, field, hchain, hfield, hmode, huser, hpwd, hcheck⟩ :=
        (handleEnhancedCertAuth_good C hgood).chain
      refine ⟨hstate, ⟨_, ⟨cb, hcb, hcalls, haccept⟩, chain, field, hchain, hfield, hmode, huser,
        hpwd⟩, ?_⟩
      intro hon
      obtain ⟨csr, hparse, -, hpassed⟩ := hcheck hon
      exact ⟨csr, hparse, chain, hchain, hpassed⟩
    refine ⟨?_, ?_, ?_, ?_, ?_⟩
    · intro _
      exact ⟨cert, hverified⟩
    · intro hstate
      have hother := (hways (by rw [hstate]; rfl)).1
      rw [hstate] at hother
      cases hother
    · intro hstate
      obtain ⟨call, haccepted, -⟩ := (hways (by rw [hstate]; rfl)).2.1
      exact ⟨call, haccepted⟩
    · intro _ _ hfailed
      rw [hverified.2] at hfailed
      cases hfailed
    · intro _ hauthorized
      exact ⟨cert, hverified, fun _ => (hways hauthorized).2⟩

end Evidence

end LibEst.Server.EnrollAuth
