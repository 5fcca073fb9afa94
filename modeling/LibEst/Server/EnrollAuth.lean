import LibEst.Server.EnhancedCertAuth
import LibEst.Server.Reference

/-! Authorization of an enrollment: the outcome of TLS, of SRP, of the HTTP
header or of the header built from the certificate, each stage overwriting the
verdict of the one before. -/
namespace LibEst.Server.EnrollAuth

open LibEst.Basic LibEst.OpenSsl LibEst.Base64 LibEst.Lib.ByteString
open LibEst.Server.AuthHeader LibEst.Server.Context LibEst.Server.EnhancedCertAuth

inductive AuthState where
  | unauthorized
  | csrParseFail
  | httpAuth
  | httpAuthPending
  | certAuth
  | srpAuth
  deriving DecidableEq, Repr

/-- The states that let a request through. -/
def AuthState.authorized : AuthState → Bool
  | .httpAuth | .srpAuth | .certAuth => true
  | _ => false

/-- The part of an HTTP connection that authorization reads and writes. -/
structure MgConnection where
  source : AuthSource
  userId : Bytes
  statusCode : Int
  deriving DecidableEq

structure AuthResult where
  state : AuthState
  hdrResult : AuthHdrResult
  /-- The calls of `est_http_auth_cb`. -/
  calls : List AuthCall
  /-- The request as parsed on the way, for the caller. -/
  csr : Option X509Req
  conn : MgConnection
  deriving DecidableEq

/-- TLS accepts the peer's certificate, or only missed a revocation list. -/
def tlsVerified (ssl : Ssl) : Bool :=
  ssl.verifyResult = x509VOk ∨ ssl.verifyResult = x509VErrUnableToGetCrl

/-- Whether to go on, the peer, and the verdict so far. -/
def checkForTlsCertAuth (ssl : Ssl) : Bool × Option X509 × AuthState :=
  match ssl.peerCert with
  | some peer => if tlsVerified ssl then (true, some peer, .certAuth) else (false, none, .unauthorized)
  | none => (true, none, .unauthorized)

variable (C : Crypto)

/-- The credentials of a request and what is written to the connection: built
from the certificate in the enhanced mode, else parsed from the header. -/
structure Credentials where
  result : AuthHdrResult
  ah : AuthHdr
  csr : Option X509Req
  userId : Bytes
  deriving DecidableEq

def ecaCredentials (ctx : EstCtx) (conn : MgConnection) (ssl : Ssl) (peer : X509) (csrBuf : Bytes) :
    Credentials :=
  let out := handleEnhancedCertAuth C ctx ssl peer csrBuf estCreateAh ctx.enhancedCertAuthCsrCheck
  { result := out.result, ah := out.ah, csr := out.csr, userId := conn.userId }

def headerCredentials (ctx : EstCtx) (conn : MgConnection) : Credentials :=
  let (result, ah, userId) :=
    mgParseAuthHeader C.bioRead ctx.authMode conn.source conn.userId estCreateAh
  { result := result, ah := ah, csr := none, userId := userId }

def credentials (ctx : EstCtx) (conn : MgConnection) (ssl : Ssl) (peer : Option X509)
    (rv : AuthState) (csrBuf : Bytes) : Credentials :=
  match peer with
  | some cert =>
      if ctx.enhancedCertAuthEnabled ∧ rv = .certAuth then ecaCredentials C ctx conn ssl cert csrBuf
      else headerCredentials C ctx conn
  | none => headerCredentials C ctx conn

def askApplication (cb : AuthCall → Bool) (call : AuthCall) : AuthState :=
  if cb call then .httpAuth else .unauthorized

/-- The HTTP stage. A header that is missing gets a challenge; one that is bad
still leaves a verified certificate for any request type that counts as true. -/
def httpStage (cb : AuthCall → Bool) (conn : MgConnection) (peer : Option X509)
    (pathSeg : Option Bytes) (enrollReq : EnrollReqType) (rv : AuthState) (creds : Credentials) :
    AuthResult :=
  let conn := { conn with userId := creds.userId }
  let done (state : AuthState) (calls : List AuthCall) (conn : MgConnection) : AuthResult :=
    { state := state, hdrResult := creds.result, calls := calls, csr := creds.csr, conn := conn }
  match creds.result with
  | .good =>
      let call : AuthCall := { ah := creds.ah, peer := peer, pathSeg := pathSeg }
      done (askApplication cb call) [call] conn
  | .missing => done .httpAuthPending [] { conn with statusCode := 401 }
  | .ecaCsrCheckFail => done .unauthorized [] conn
  | .ecaCsrParseFail => done .csrParseFail [] conn
  | .ecaErr => done .unauthorized [] conn
  | .bad => done (if enrollReq.isTrue ∧ rv = .certAuth then rv else .unauthorized) [] conn

/-- The CoAP stage in the enhanced mode. The callback is called without a test,
so that a server without one stops here. -/
def coapStage (cb : Option (AuthCall → Bool)) (conn : MgConnection) (peer : X509)
    (pathSeg : Option Bytes) (out : EcaOutcome) : Option AuthResult :=
  let done (state : AuthState) (calls : List AuthCall) : AuthResult :=
    { state := state, hdrResult := out.result, calls := calls, csr := out.csr, conn := conn }
  match out.result with
  | .good =>
      let call : AuthCall := { ah := out.ah, peer := some peer, pathSeg := pathSeg }
      cb.map fun cb => done (askApplication cb call) [call]
  | .ecaCsrParseFail => some (done .csrParseFail [])
  | _ => some (done .unauthorized [])

def estEnrollAuth (ctx : EstCtx) (conn : MgConnection) (ssl : Ssl) (pathSeg : Option Bytes)
    (enrollReq : EnrollReqType) (csrBuf : Bytes) : Option AuthResult :=
  let asIs (state : AuthState) : AuthResult :=
    { state := state, hdrResult := .ecaErr, calls := [], csr := none, conn := conn }
  match checkForTlsCertAuth ssl with
  | (false, _, rv) => some (asIs rv)
  | (true, peer, rv) =>
      let rv := if rv ≠ .certAuth ∧ ssl.srpUsername.isSome then .srpAuth else rv
      match ctx.transportMode with
      | .http =>
          match ctx.estHttpAuthCb with
          | some cb =>
              if rv = .unauthorized ∨ ctx.requireHttpAuth = .required then
                some (httpStage cb conn peer pathSeg enrollReq rv
                  (credentials C ctx conn ssl peer rv csrBuf))
              else some (asIs rv)
          | none => some (asIs rv)
      | .coap =>
          match peer with
          | none => some (asIs .unauthorized)
          | some cert =>
              if ctx.enhancedCertAuthEnabled then
                if csrBuf = [] then some (asIs .csrParseFail)
                else
                  coapStage ctx.estHttpAuthCb conn cert pathSeg
                    (handleEnhancedCertAuth C ctx ssl cert csrBuf estCreateAh
                      ctx.enhancedCertAuthCsrCheck)
              else some (asIs rv)

section Stages

variable {C} {ctx : EstCtx} {conn : MgConnection} {ssl : Ssl} {pathSeg : Option Bytes}
  {enrollReq : EnrollReqType} {csrBuf : Bytes} {r : AuthResult}

/-- The peer showed this certificate and TLS accepted it. -/
def Verified (ssl : Ssl) (cert : X509) : Prop := ssl.peerCert = some cert ∧ tlsVerified ssl = true

theorem checkForTlsCertAuth_cases (ssl : Ssl) :
    (∃ cert, Verified ssl cert ∧ checkForTlsCertAuth ssl = (true, some cert, .certAuth)) ∨
    (ssl.peerCert = none ∧ checkForTlsCertAuth ssl = (true, none, .unauthorized)) ∨
    (∃ cert, ssl.peerCert = some cert ∧ tlsVerified ssl = false ∧
      checkForTlsCertAuth ssl = (false, none, .unauthorized)) := by
  unfold checkForTlsCertAuth
  cases hpeer : ssl.peerCert with
  | none => exact Or.inr (Or.inl ⟨rfl, rfl⟩)
  | some cert =>
    cases hverified : tlsVerified ssl with
    | true => exact Or.inl ⟨cert, ⟨hpeer, hverified⟩, rfl⟩
    | false => exact Or.inr (Or.inr ⟨cert, rfl, rfl, rfl⟩)

/-- A request gets through the HTTP stage by the application's word, or with a
bad header and a verified certificate. -/
theorem httpStage_authorized {cb : AuthCall → Bool} {peer : Option X509} {rv : AuthState}
    {creds : Credentials}
    (h : (httpStage cb conn peer pathSeg enrollReq rv creds).state.authorized = true) :
    (creds.result = .good ∧ cb ⟨creds.ah, peer, pathSeg⟩ = true ∧
      (httpStage cb conn peer pathSeg enrollReq rv creds).state = .httpAuth ∧
      (httpStage cb conn peer pathSeg enrollReq rv creds).calls = [⟨creds.ah, peer, pathSeg⟩]) ∨
    (creds.result = .bad ∧ enrollReq.isTrue = true ∧ rv = .certAuth ∧
      (httpStage cb conn peer pathSeg enrollReq rv creds).state = .certAuth ∧
      (httpStage cb conn peer pathSeg enrollReq rv creds).calls = []) := by
  unfold httpStage at h ⊢
  cases hresult : creds.result <;> simp only [hresult] at h ⊢
  case good =>
    simp only [askApplication] at h ⊢
    cases hcb : cb ⟨creds.ah, peer, pathSeg⟩ with
    | true => simp
    | false =>
      rw [hcb] at h
      cases h
  case bad =>
    by_cases hreq : enrollReq.isTrue = true ∧ rv = .certAuth
    · simp [hreq]
    · rw [if_neg hreq] at h
      cases h
  all_goals cases h

end Stages

section Required

variable (ctx : EstCtx) (conn : MgConnection) (ssl : Ssl) (pathSeg : Option Bytes)
  (enrollReq : EnrollReqType) (csrBuf : Bytes)

def HeaderMalformed : Prop :=
  (mgParseAuthHeader C.bioRead ctx.authMode conn.source conn.userId estCreateAh).1 = .bad

/-- A call with the credentials of this request: those of its header, or in the
enhanced mode those built from its certificate. -/
def OwnCredentials (call : AuthCall) : Prop :=
  call.peer = ssl.peerCert ∧ call.pathSeg = pathSeg ∧
  ((∃ cert, Verified ssl cert ∧ ctx.enhancedCertAuthEnabled = true ∧
      (ecaCredentials C ctx conn ssl cert csrBuf).result = .good ∧
      call.ah = (ecaCredentials C ctx conn ssl cert csrBuf).ah) ∨
    ((headerCredentials C ctx conn).result = .good ∧ call.ah = (headerCredentials C ctx conn).ah))

/-- Whoever gets through was accepted by the application in this very call, or
reenrolls with a verified certificate and a malformed header. -/
def AcceptedByApplication (cb : AuthCall → Bool) : Prop :=
  ∀ r, estEnrollAuth C ctx conn ssl pathSeg enrollReq csrBuf = some r → r.state.authorized = true →
    (∃ call, r.calls = [call] ∧ cb call = true ∧ OwnCredentials C ctx conn ssl pathSeg csrBuf call) ∨
    (enrollReq = .reenroll ∧ (∃ cert, Verified ssl cert) ∧ ctx.enhancedCertAuthEnabled = false ∧
      HeaderMalformed C ctx conn)

/-- The two ways past the application that are left: a key generation with a
malformed header, and a failure of OpenSSL in the enhanced mode. -/
def PassedOver : Prop :=
  ∃ cert, Verified ssl cert ∧
    ((ctx.enhancedCertAuthEnabled = false ∧ enrollReq = .serverKeygen ∧
        HeaderMalformed C ctx conn) ∨
      (ctx.enhancedCertAuthEnabled = true ∧ enrollReq ≠ .simpleEnroll ∧
        ∃ chain infos, ssl.peerChain = some chain ∧ ctx.enchdCertMfgsInfoList = some infos ∧
          InitFails C cert chain infos.toList))

variable {ctx} {cb : AuthCall → Bool}

/-- With a callback and HTTP authentication required, everything that TLS lets
through goes to the HTTP stage. -/
theorem estEnrollAuth_required (hmode : ctx.transportMode = .http)
    (hcb : ctx.estHttpAuthCb = some cb) (hrequired : ctx.requireHttpAuth = .required)
    {peer : Option X509} {rv : AuthState} (htls : checkForTlsCertAuth ssl = (true, peer, rv)) :
    estEnrollAuth C ctx conn ssl pathSeg enrollReq csrBuf =
      some (httpStage cb conn peer pathSeg enrollReq
        (if rv ≠ .certAuth ∧ ssl.srpUsername.isSome then .srpAuth else rv)
        (credentials C ctx conn ssl peer
          (if rv ≠ .certAuth ∧ ssl.srpUsername.isSome then .srpAuth else rv) csrBuf)) := by
  simp only [estEnrollAuth, htls, hmode, hcb, hrequired, or_true, if_true]

/-- Whoever is passed over gets through on the certificate alone. -/
theorem PassedOver.unasked (hmode : ctx.transportMode = .http)
    (hcb : ctx.estHttpAuthCb = some cb) (hrequired : ctx.requireHttpAuth = .required)
    (h : PassedOver C ctx conn ssl enrollReq) :
    ∃ r, estEnrollAuth C ctx conn ssl pathSeg enrollReq csrBuf = some r ∧ r.state = .certAuth ∧
      r.calls = [] := by
  obtain ⟨cert, hverified, hway⟩ := h
  have htls : checkForTlsCertAuth ssl = (true, some cert, .certAuth) := by
    simp [checkForTlsCertAuth, hverified.1, hverified.2]
  refine ⟨_, estEnrollAuth_required C conn ssl pathSeg enrollReq csrBuf hmode hcb hrequired htls, ?_⟩
  simp only [ne_eq, not_true_eq_false, false_and, if_false]
  have hbad : (credentials C ctx conn ssl (some cert) .certAuth csrBuf).result = .bad ∧
      enrollReq.isTrue = true := by
    rcases hway with ⟨heca, rfl, hheader⟩ | ⟨heca, hreq, hinit⟩
    · have hresult : (headerCredentials C ctx conn).result = .bad := hheader
      exact ⟨by simpa [credentials, heca] using hresult, rfl⟩
    · constructor
      · have hresult : (ecaCredentials C ctx conn ssl cert csrBuf).result = .bad :=
          (handleEnhancedCertAuth_bad_iff C).mpr hinit
        simpa [credentials, heca] using hresult
      · cases enrollReq with
        | simpleEnroll => exact absurd rfl hreq
        | reenroll => rfl
        | serverKeygen => rfl
  simp [httpStage, hbad.1, hbad.2]

/-- With a verified certificate, a bad result of the enhanced mode or of the
header is one of the ways past the application, or the exception. -/
theorem bad_credentials_cases {cert : X509} (hverified : Verified ssl cert)
    (hbad : (credentials C ctx conn ssl (some cert) .certAuth csrBuf).result = .bad)
    (hreq : enrollReq.isTrue = true) :
    PassedOver C ctx conn ssl enrollReq ∨
      (enrollReq = .reenroll ∧ (∃ cert, Verified ssl cert) ∧ ctx.enhancedCertAuthEnabled = false ∧
        HeaderMalformed C ctx conn) := by
  have hsimple : enrollReq ≠ .simpleEnroll := by
    rintro rfl
    cases hreq
  cases heca : ctx.enhancedCertAuthEnabled with
  | false =>
    have hheader : (headerCredentials C ctx conn).result = .bad := by
      simpa [credentials, heca] using hbad
    cases enrollReq with
    | simpleEnroll => exact absurd rfl hsimple
    | reenroll => exact Or.inr ⟨rfl, ⟨cert, hverified⟩, rfl, hheader⟩
    | serverKeygen => exact Or.inl ⟨cert, hverified, Or.inl ⟨heca, rfl, hheader⟩⟩
  | true =>
    have hresult : (ecaCredentials C ctx conn ssl cert csrBuf).result = .bad := by
      simpa [credentials, heca] using hbad
    exact Or.inl ⟨cert, hverified, Or.inr ⟨heca, hsimple,
      (handleEnhancedCertAuth_bad_iff C).mp hresult⟩⟩

theorem good_credentials_own {peer : Option X509} {rv : AuthState} (hpeer : peer = ssl.peerCert)
    (hverified : ∀ cert, peer = some cert → Verified ssl cert)
    (hgood : (credentials C ctx conn ssl peer rv csrBuf).result = .good) :
    OwnCredentials C ctx conn ssl pathSeg csrBuf
      ⟨(credentials C ctx conn ssl peer rv csrBuf).ah, peer, pathSeg⟩ := by
  refine ⟨hpeer, rfl, ?_⟩
  unfold credentials at hgood ⊢
  split
  · rename_i cert
    split
    · rename_i heca
      simp only [heca, and_self, if_true] at hgood
      exact Or.inl ⟨cert, hverified cert rfl, heca.1, hgood, rfl⟩
    · rename_i heca
      simp only [heca, if_false] at hgood
      exact Or.inr ⟨hgood, rfl⟩
  · exact Or.inr ⟨hgood, rfl⟩

/-- HTTP authentication is required and the application has a callback: then
nobody gets through without being accepted by it, apart from a reenrollment with
a malformed header, exactly when neither of the two ways past it is open. -/
theorem http_auth_required_enforced (hmode : ctx.transportMode = .http)
    (hcb : ctx.estHttpAuthCb = some cb) (hrequired : ctx.requireHttpAuth = .required) :
    AcceptedByApplication C ctx conn ssl pathSeg enrollReq csrBuf cb ↔
      ¬ PassedOver C ctx conn ssl enrollReq := by
  constructor
  · intro haccepted hpassed
    obtain ⟨r, hr, hstate, hcalls⟩ :=
      hpassed.unasked C conn ssl pathSeg enrollReq csrBuf hmode hcb hrequired
    rcases haccepted r hr (by rw [hstate]; rfl) with ⟨call, hcall, -⟩ | ⟨hreenroll, -, hoff, -⟩
    · rw [hcalls] at hcall
      cases hcall
    · obtain ⟨cert, -, ⟨-, hkeygen, -⟩ | ⟨hon, -⟩⟩ := hpassed
      · rw [hreenroll] at hkeygen
        cases hkeygen
      · rw [hoff] at hon
        cases hon
  · intro hnot r hr hauthorized
    rcases checkForTlsCertAuth_cases ssl with
      ⟨cert, hverified, htls⟩ | ⟨hpeer, htls⟩ | ⟨cert, hpeer, hfailed, htls⟩
    · rw [estEnrollAuth_required C conn ssl pathSeg enrollReq csrBuf hmode hcb hrequired htls] at hr
      simp only [ne_eq, not_true_eq_false, false_and, if_false, Option.some.injEq] at hr
      subst hr
      rcases httpStage_authorized hauthorized with ⟨hgood, haccept, -, hcalls⟩ | ⟨hbad, hreq, -⟩
      · refine Or.inl ⟨_, hcalls, haccept, ?_⟩
        apply good_credentials_own C conn ssl pathSeg csrBuf hverified.1.symm _ hgood
        intro other hother
        cases hother
        exact hverified
      · exact Or.inr ((bad_credentials_cases C conn ssl enrollReq csrBuf hverified hbad
          hreq).resolve_left hnot)
    · rw [estEnrollAuth_required C conn ssl pathSeg enrollReq csrBuf hmode hcb hrequired htls] at hr
      rw [Option.some.injEq] at hr
      subst hr
      rcases httpStage_authorized hauthorized with ⟨hgood, haccept, -, hcalls⟩ | ⟨-, -, hrv, -⟩
      · refine Or.inl ⟨_, hcalls, haccept, ?_⟩
        exact good_credentials_own C conn ssl pathSeg csrBuf hpeer.symm (by simp) hgood
      · split at hrv <;> cases hrv
    · simp only [estEnrollAuth, htls, Option.some.injEq] at hr
      subst hr
      cases hauthorized

end Required

section Instances

open LibEst.Server.Reference

/-- A connection whose request has this Authorization header. -/
def connWith (header : String) : MgConnection where
  source := { authorization := some (ascii header), stack := [] }
  userId := []
  statusCode := -1

theorem http_auth_required_enforced_simple_enroll :
    AcceptedByApplication hostCrypto authCtx (connWith "Token") devSession none .simpleEnroll
      clientBody (userIs "alice") := by
  refine (http_auth_required_enforced hostCrypto (connWith "Token") devSession none .simpleEnroll
    clientBody (show authCtx.transportMode = .http from rfl)
    (show authCtx.estHttpAuthCb = some (userIs "alice") from rfl) rfl).mpr ?_
  rintro ⟨cert, -, ⟨-, hreq, -⟩ | ⟨heca, -⟩⟩
  · cases hreq
  · cases heca

/-- A key generation with a verified certificate and a header of no known scheme
is authorized, and the application is not asked. -/
theorem keygen_malformed_header_unasked :
    ¬ AcceptedByApplication hostCrypto authCtx (connWith "Token") devSession none .serverKeygen
      clientBody (userIs "alice") := by
  intro haccepted
  have hresult : estEnrollAuth hostCrypto authCtx (connWith "Token") devSession none .serverKeygen
      clientBody = some { state := .certAuth, hdrResult := .bad, calls := [], csr := none,
                          conn := connWith "Token" } := by
    decide
  rcases haccepted _ hresult rfl with ⟨call, hcalls, -⟩ | ⟨hreq, -⟩
  · cases hcalls
  · cases hreq

end Instances

end LibEst.Server.EnrollAuth
