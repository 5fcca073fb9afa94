import LibEst.Server.AuthPaths

/-! The name on the connection once a request is authorized. A good header with a
user name overwrites it; every other way leaves the name of an earlier request
where it is. -/
namespace LibEst.Server.EnrollAuth

open LibEst.Basic LibEst.OpenSsl LibEst.Lib.ByteString
open LibEst.Server.AuthHeader LibEst.Server.Context LibEst.Server.EnhancedCertAuth

variable (C : Crypto) (ctx : EstCtx) (conn : MgConnection) (ssl : Ssl) (pathSeg : Option Bytes)
  (enrollReq : EnrollReqType) (csrBuf : Bytes)

/-- The name that is left on the connection is empty, or it is the one that the
application accepted. -/
def Named (ctx : EstCtx) (r : AuthResult) : Prop :=
  r.conn.userId = [] ∨ ∃ call, Accepted ctx r call ∧ call.ah.user = some r.conn.userId

/-- The ways to be authorized over HTTP that leave the name on the connection as
it was, although nobody was accepted under it. -/
inductive Unnamed : Prop
  | tlsOnly (peer : Option X509) (rv : AuthState) (htls : TlsVerdict ssl peer rv)
      (hrv : rv ≠ .unauthorized)
      (hunasked : ctx.estHttpAuthCb = none ∨ ctx.requireHttpAuth ≠ .required)
  | malformed (cert : X509) (hverified : Verified ssl cert) (hreq : enrollReq.isTrue = true)
      (hbad : (credentials C ctx conn ssl (some cert) .certAuth csrBuf).result = .bad)
  | token (cb : AuthCall → Bool) (peer : Option X509) (rv : AuthState)
      (hcb : ctx.estHttpAuthCb = some cb) (htls : TlsVerdict ssl peer rv)
      (hheader : peer = none ∨ ctx.enhancedCertAuthEnabled = false)
      (hgood : (headerCredentials C ctx conn).result = .good)
      (hmode : (headerCredentials C ctx conn).ah.mode = .token)
      (haccepted : cb ⟨(headerCredentials C ctx conn).ah, peer, pathSeg⟩ = true)
  | enhanced (cb : AuthCall → Bool) (cert : X509) (hcb : ctx.estHttpAuthCb = some cb)
      (hverified : Verified ssl cert) (heca : ctx.enhancedCertAuthEnabled = true)
      (hgood : (ecaCredentials C ctx conn ssl cert csrBuf).result = .good)
      (hother : (ecaCredentials C ctx conn ssl cert csrBuf).ah.user ≠ some conn.userId)
      (haccepted : cb ⟨(ecaCredentials C ctx conn ssl cert csrBuf).ah, some cert, pathSeg⟩ = true)

variable {C ctx conn ssl pathSeg enrollReq csrBuf} {r : AuthResult}

theorem headerCredentials_user :
    ((headerCredentials C ctx conn).userId = conn.userId ∧
      ((headerCredentials C ctx conn).result = .good →
        (headerCredentials C ctx conn).ah.mode = .token ∧
        (headerCredentials C ctx conn).ah.user = none)) ∨
    ((headerCredentials C ctx conn).result = .good ∧
      (headerCredentials C ctx conn).ah.mode ≠ .token ∧
      (headerCredentials C ctx conn).ah.user = some (headerCredentials C ctx conn).userId) :=
  mgParseAuthHeader_user rfl

theorem TlsVerdict.certAuth_peer {peer : Option X509} (h : TlsVerdict ssl peer .certAuth) :
    ∃ cert, peer = some cert ∧ Verified ssl cert := by
  cases h with
  | cert cert hverified => exact ⟨cert, rfl, hverified⟩

/-- A verified certificate always comes with this verdict. -/
theorem TlsVerdict.rv_certAuth {cert : X509} {rv : AuthState}
    (h : TlsVerdict ssl (some cert) rv) : rv = .certAuth ∧ Verified ssl cert := by
  cases h with
  | cert _ hverified => exact ⟨rfl, hverified⟩

/-- The credentials of a request come from the header or from the certificate. -/
theorem credentials_cases {peer : Option X509} {rv : AuthState} (htls : TlsVerdict ssl peer rv) :
    (credentials C ctx conn ssl peer rv csrBuf = headerCredentials C ctx conn ∧
      (peer = none ∨ ctx.enhancedCertAuthEnabled = false)) ∨
    ∃ cert, peer = some cert ∧ Verified ssl cert ∧ ctx.enhancedCertAuthEnabled = true ∧
      credentials C ctx conn ssl peer rv csrBuf = ecaCredentials C ctx conn ssl cert csrBuf := by
  unfold credentials
  cases peer with
  | none => exact Or.inl ⟨rfl, Or.inl rfl⟩
  | some cert =>
    obtain ⟨rfl, hverified⟩ := htls.rv_certAuth
    cases heca : ctx.enhancedCertAuthEnabled with
    | false => exact Or.inl ⟨by simp, Or.inr rfl⟩
    | true => exact Or.inr ⟨cert, rfl, hverified, rfl, by simp⟩

theorem httpStage_userId {cb : AuthCall → Bool} {peer : Option X509} {rv : AuthState}
    {creds : Credentials} :
    (httpStage cb conn peer pathSeg enrollReq rv creds).conn.userId = creds.userId := by
  unfold httpStage
  cases creds.result <;> rfl

/-- A bad header writes no name. -/
theorem credentials_userId_of_bad {peer : Option X509} {rv : AuthState}
    (htls : TlsVerdict ssl peer rv)
    (hbad : (credentials C ctx conn ssl peer rv csrBuf).result = .bad) :
    (credentials C ctx conn ssl peer rv csrBuf).userId = conn.userId := by
  rcases credentials_cases htls with ⟨hheader, -⟩ | ⟨cert, -, -, -, henhanced⟩
  · rw [hheader] at hbad ⊢
    rcases headerCredentials_user with ⟨hkept, -⟩ | ⟨hgood, -⟩
    · exact hkept
    · rw [hbad] at hgood
      cases hgood
  · rw [henhanced]
    rfl

/-- Whoever gets through has a name of its own, or came one of those ways. -/
theorem AuthPath.named (h : AuthPath C ctx conn ssl pathSeg enrollReq csrBuf r)
    (hmode : ctx.transportMode = .http) (hauthorized : r.state.authorized = true) :
    Named ctx r ∨ (Unnamed C ctx conn ssl pathSeg enrollReq csrBuf ∧
      r.conn.userId = conn.userId) := by
  cases h with
  | rejected => cases hauthorized
  | coapNoCert hcoap | coapCert _ hcoap | coapNoCsr hcoap | coapEca _ _ hcoap =>
    rw [hmode] at hcoap
    cases hcoap
  | tlsOnly peer rv _ htls hunasked =>
    refine Or.inr ⟨.tlsOnly peer rv htls ?_ ?_, rfl⟩
    · rintro rfl
      cases hauthorized
    · cases hcb : ctx.estHttpAuthCb with
      | none => exact Or.inl rfl
      | some cb => exact Or.inr (hunasked cb hcb).2
  | http cb peer rv _ hcb htls hasked =>
    have hleft : (httpStage cb conn peer pathSeg enrollReq rv
        (credentials C ctx conn ssl peer rv csrBuf)).conn.userId =
        (credentials C ctx conn ssl peer rv csrBuf).userId := httpStage_userId
    rcases httpStage_authorized hauthorized with
      ⟨hgood, haccept, -, hcalls⟩ | ⟨hbad, hreq, rfl, -, -⟩
    · rcases credentials_cases htls with
        ⟨hheader, hplain⟩ | ⟨cert, rfl, hverified, heca, henhanced⟩
      · rw [hheader] at hleft hgood haccept hcalls ⊢
        rcases headerCredentials_user with ⟨hkept, htoken⟩ | ⟨-, -, hname⟩
        · exact Or.inr ⟨.token cb peer rv hcb htls hplain hgood (htoken hgood).1 haccept,
            hleft.trans hkept⟩
        · refine Or.inl (Or.inr ⟨_, ⟨cb, hcb, hcalls, haccept⟩, ?_⟩)
          rw [hleft]
          exact hname
      · rw [henhanced] at hleft hgood haccept hcalls ⊢
        have hkept : (ecaCredentials C ctx conn ssl cert csrBuf).userId = conn.userId := rfl
        by_cases hother : (ecaCredentials C ctx conn ssl cert csrBuf).ah.user = some conn.userId
        · refine Or.inl (Or.inr ⟨_, ⟨cb, hcb, hcalls, haccept⟩, ?_⟩)
          rw [hleft, hkept]
          exact hother
        · exact Or.inr ⟨.enhanced cb cert hcb hverified heca hgood hother haccept,
            hleft.trans hkept⟩
    · obtain ⟨cert, rfl, hverified⟩ := htls.certAuth_peer
      exact Or.inr ⟨.malformed cert hverified hreq hbad,
        hleft.trans (credentials_userId_of_bad htls hbad)⟩

/-- With a verdict of TLS, the two ways to go on. -/
theorem estEnrollAuth_verdict (hmode : ctx.transportMode = .http) {peer : Option X509}
    {rv : AuthState} (htls : TlsVerdict ssl peer rv) :
    (estEnrollAuth C ctx conn ssl pathSeg enrollReq csrBuf = some (asIs conn rv) ∧
      ∀ cb, ctx.estHttpAuthCb = some cb → rv ≠ .unauthorized ∧ ctx.requireHttpAuth ≠ .required) ∨
    ∃ cb, ctx.estHttpAuthCb = some cb ∧
      (rv = .unauthorized ∨ ctx.requireHttpAuth = .required) ∧
      estEnrollAuth C ctx conn ssl pathSeg enrollReq csrBuf =
        some (httpStage cb conn peer pathSeg enrollReq rv
          (credentials C ctx conn ssl peer rv csrBuf)) := by
  have hstart : ∃ state, checkForTlsCertAuth ssl = (true, peer, state) ∧
      (if state ≠ .certAuth ∧ ssl.srpUsername.isSome then .srpAuth else state) = rv := by
    cases htls with
    | cert cert hverified =>
      refine ⟨.certAuth, ?_, by simp⟩
      simp [checkForTlsCertAuth, hverified.1, hverified.2]
    | srp hpeer hsrp =>
      refine ⟨.unauthorized, ?_, by simp [hsrp]⟩
      simp [checkForTlsCertAuth, hpeer]
    | nothing hpeer hsrp =>
      refine ⟨.unauthorized, ?_, by simp [hsrp]⟩
      simp [checkForTlsCertAuth, hpeer]
  obtain ⟨state, hcheck, hrv⟩ := hstart
  unfold estEnrollAuth
  simp only [hcheck, hrv, hmode]
  cases hcb : ctx.estHttpAuthCb with
  | none => exact Or.inl ⟨rfl, by simp⟩
  | some cb =>
    by_cases hasked : rv = .unauthorized ∨ ctx.requireHttpAuth = .required
    · exact Or.inr ⟨cb, rfl, hasked, by simp only [hasked, if_true]⟩
    · refine Or.inl ⟨by simp only [hasked, if_false]; rfl, ?_⟩
      intro _ _
      exact not_or.mp hasked

/-- Whatever becomes of a request, its name is on the connection only if it was
accepted or the request is refused. -/
theorem AuthPath.user (h : AuthPath C ctx conn ssl pathSeg enrollReq csrBuf r) :
    r.conn.userId = conn.userId ∨ Named ctx r ∨ r.state = .unauthorized := by
  cases h with
  | rejected | tlsOnly | coapNoCert | coapCert | coapNoCsr => exact Or.inl rfl
  | coapEca cert r _ _ _ hr => exact Or.inl (by rw [(coapStage_csr hr).2])
  | http cb peer rv _ hcb htls hasked =>
    rw [httpStage_userId]
    rcases credentials_cases htls with ⟨hheader, -⟩ | ⟨cert, -, -, -, henhanced⟩
    · rw [hheader]
      rcases headerCredentials_user with ⟨hkept, -⟩ | ⟨hgood, -, hname⟩
      · exact Or.inl hkept
      · cases haccept : cb ⟨(headerCredentials C ctx conn).ah, peer, pathSeg⟩ with
        | true =>
          refine Or.inr (Or.inl (Or.inr ⟨_, ⟨cb, hcb, ?_, haccept⟩, ?_⟩))
          · simp only [httpStage, hgood]
          · rw [httpStage_userId]
            exact hname
        | false =>
          refine Or.inr (Or.inr ?_)
          simp [httpStage, hgood, askApplication, haccept]
    · rw [henhanced]
      exact Or.inl rfl

theorem TlsVerdict.authorized {peer : Option X509} {rv : AuthState} (h : TlsVerdict ssl peer rv)
    (hrv : rv ≠ .unauthorized) : rv.authorized = true := by
  cases h with
  | cert | srp => rfl
  | nothing => exact absurd rfl hrv

/-- A request that nobody is asked about keeps the name that it found. -/
theorem asIs_not_named {rv : AuthState} (hkept : conn.userId ≠ []) : ¬ Named ctx (asIs conn rv) := by
  rintro (hempty | ⟨call, ⟨cb, -, hcalls, -⟩, -⟩)
  · exact hkept hempty
  · cases hcalls

/-- Neither does one whose accepted credentials are not written to the connection. -/
theorem httpStage_not_named {cb : AuthCall → Bool} {peer : Option X509} {rv : AuthState}
    {creds : Credentials} (hkept : conn.userId ≠ []) (huser : creds.userId = conn.userId)
    (hgood : creds.result = .good) (hother : creds.ah.user ≠ some conn.userId) :
    ¬ Named ctx (httpStage cb conn peer pathSeg enrollReq rv creds) := by
  have hleft : (httpStage cb conn peer pathSeg enrollReq rv creds).conn.userId = conn.userId :=
    httpStage_userId.trans huser
  rintro (hempty | ⟨call, ⟨accept, -, hcalls, -⟩, hname⟩)
  · rw [hleft] at hempty
    exact hkept hempty
  · simp only [httpStage, hgood, List.cons.injEq, and_true] at hcalls
    rw [hleft, ← hcalls] at hname
    exact hother hname

theorem httpStage_accepted {cb : AuthCall → Bool} {peer : Option X509} {rv : AuthState}
    {creds : Credentials} (hgood : creds.result = .good)
    (haccepted : cb ⟨creds.ah, peer, pathSeg⟩ = true) :
    (httpStage cb conn peer pathSeg enrollReq rv creds).state.authorized = true := by
  simp only [httpStage, hgood, askApplication, haccepted, if_true]
  rfl

/-- Each of those ways can be gone: the request gets through with the name that an
earlier one has left. -/
theorem Unnamed.taken (h : Unnamed C ctx conn ssl pathSeg enrollReq csrBuf)
    (hmode : ctx.transportMode = .http) (hkept : conn.userId ≠ []) :
    ∃ r, estEnrollAuth C ctx conn ssl pathSeg enrollReq csrBuf = some r ∧
      r.state.authorized = true ∧ ¬ Named ctx r := by
  cases h with
  | tlsOnly peer rv htls hrv hunasked =>
    rcases estEnrollAuth_verdict hmode htls with ⟨hr, -⟩ | ⟨cb, hcb, hasked, -⟩
    · exact ⟨_, hr, htls.authorized hrv, asIs_not_named hkept⟩
    · rcases hunasked with hnone | hnot
      · rw [hnone] at hcb
        cases hcb
      · exact absurd (hasked.resolve_left hrv) hnot
  | malformed cert hverified hreq hbad =>
    rcases estEnrollAuth_verdict hmode (.cert cert hverified) with ⟨hr, -⟩ | ⟨cb, hcb, -, hr⟩
    · exact ⟨_, hr, rfl, asIs_not_named hkept⟩
    · refine ⟨_, hr, ?_, ?_⟩
      · simp only [httpStage, hbad, hreq, and_self, if_true]
        rfl
      · rintro (hempty | ⟨call, ⟨accept, -, hcalls, -⟩, -⟩)
        · rw [httpStage_userId, credentials_userId_of_bad (.cert cert hverified) hbad] at hempty
          exact hkept hempty
        · simp only [httpStage, hbad] at hcalls
          cases hcalls
  | token cb peer rv hcb htls hheader hgood htoken haccepted =>
    rcases estEnrollAuth_verdict hmode htls with ⟨hr, hunasked⟩ | ⟨accept, haccept, -, hr⟩
    · exact ⟨_, hr, htls.authorized (hunasked cb hcb).1, asIs_not_named hkept⟩
    · rw [hcb, Option.some.injEq] at haccept
      subst haccept
      have hcredentials : credentials C ctx conn ssl peer rv csrBuf = headerCredentials C ctx conn := by
        unfold credentials
        rcases hheader with rfl | heca
        · rfl
        · cases peer <;> simp [heca]
      rw [hcredentials] at hr
      rcases headerCredentials_user with ⟨huser, hname⟩ | ⟨-, hnot, -⟩
      · refine ⟨_, hr, httpStage_accepted hgood haccepted,
          httpStage_not_named hkept huser hgood ?_⟩
        rw [(hname hgood).2]
        simp
      · exact absurd htoken hnot
  | enhanced cb cert hcb hverified heca hgood hother haccepted =>
    rcases estEnrollAuth_verdict hmode (.cert cert hverified) with ⟨hr, -⟩ | ⟨accept, haccept, -, hr⟩
    · exact ⟨_, hr, rfl, asIs_not_named hkept⟩
    · rw [hcb, Option.some.injEq] at haccept
      subst haccept
      have hcredentials : credentials C ctx conn ssl (some cert) .certAuth csrBuf =
          ecaCredentials C ctx conn ssl cert csrBuf := by
        simp [credentials, heca]
      rw [hcredentials] at hr
      exact ⟨_, hr, httpStage_accepted hgood haccepted, httpStage_not_named hkept rfl hgood hother⟩

/-- Whoever gets through has a name that was accepted, exactly when there is no
name to be kept or none of the ways that keep one is open. -/
theorem estEnrollAuth_named_iff (hmode : ctx.transportMode = .http) :
    (∀ r, estEnrollAuth C ctx conn ssl pathSeg enrollReq csrBuf = some r →
      r.state.authorized = true → Named ctx r) ↔
    (conn.userId = [] ∨ ¬ Unnamed C ctx conn ssl pathSeg enrollReq csrBuf) := by
  constructor
  · intro hnamed
    by_contra hkept
    obtain ⟨hkept, hunnamed⟩ := not_or.mp hkept
    obtain ⟨r, hr, hauthorized, hnot⟩ := (not_not.mp hunnamed).taken hmode hkept
    exact hnot (hnamed r hr hauthorized)
  · intro hfresh r hr hauthorized
    rcases (estEnrollAuth_path hr).named hmode hauthorized with hnamed | ⟨hunnamed, hkept⟩
    · exact hnamed
    · rcases hfresh with hempty | hnot
      · exact Or.inl (hkept.trans hempty)
      · exact absurd hunnamed hnot

end LibEst.Server.EnrollAuth
