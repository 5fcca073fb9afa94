import LibEst.Server.AuthPaths
import LibEst.Server.Enroll

/-! What has happened by the time that a CA callback is called, on every path
through the two handlers. -/
namespace LibEst.Server.Enroll

open LibEst.Basic LibEst.OpenSsl LibEst.Base64 LibEst.Lib.ByteString LibEst.Asn1
open LibEst.Server.AuthHeader LibEst.Server.Context LibEst.Server.EnrollAuth
open LibEst.Server.CsrAttrs LibEst.Server.TlsUid LibEst.Server.EnhancedCertAuth

variable (C : Crypto) (A : Asn1Ops) (ctx : EstCtx)

/-- The signature verifies under the public key of the request itself. -/
def SelfSigned (csr : X509Req) : Prop :=
  ∃ pub, C.getPubkey csr = some pub ∧ 0 < C.verify csr pub

/-- The request of the client for the public half of a key pair, signed by it. -/
structure Rekeyed (csr given : X509Req) (privKey : EvpPkey) : Prop where
  subject : given.subject = csr.subject
  attributes : given.attributes = csr.attributes
  pubKey : C.setPubkey privKey = some given.pubKey
  signature : C.sign { csr with pubKey := given.pubKey } privKey ctx.signingDigest =
    some given.signature
  selfSigned : SelfSigned C given

/-- How the request that the CA gets comes from that of the client. -/
inductive GivenToCa (r : EnrollRequest) (csr : X509Req) (call : CaCall) : X509Req → Prop
  | asSent (hreq : call.reqType ≠ .serverKeygen) (hbody : call.request.pkcs10 = r.body)
      (hsigned : SelfSigned C csr) : GivenToCa r csr call csr
  | rekeyed (given : X509Req) (privKey : EvpPkey) (der : Bytes)
      (hreq : call.reqType = .serverKeygen)
      (hgenerated : ctx.keygenCb = some (.none, some privKey))
      (hrekeyed : Rekeyed C ctx csr given privKey)
      (hbody : call.request.pkcs10 = base64Text true (C.i2dX509Req given))
      (hder : C.i2dPrivateKey privKey = some der)
      (hkey : call.key = some (base64Text true der)) : GivenToCa r csr call given

/-- All that holds when the CA callback is called. -/
structure Gate (conn : MgConnection) (r : EnrollRequest) (enrollReq : EnrollReqType)
    (call : CaCall) : Prop where
  reqType : call.reqType = enrollReq
  authorized : ∃ auth, estEnrollAuth C ctx conn r.ssl r.pathSeg enrollReq r.body = some auth ∧
    auth.state.authorized = true
  request : ∃ csr given, estServerParseCsr C r.body = some csr ∧ GivenToCa C ctx r csr call given ∧
    (clientIsRa r.peerCert = true ∨ estTlsUidAuth ctx r.ssl given = some .none) ∧
    (ctx.enforceCsrattrs = true →
      estServerAllCsrattrsPresent C A ctx call.request.pkcs10 r.peerCert = .none)

section Stages

variable {C A ctx} {conn : MgConnection} {r : EnrollRequest} {enrollReq : EnrollReqType}
  {out : Outcome} {call : CaCall}

theorem selfSigned_of_check {csr : X509Req} (h : ¬ estServerCheckCsr C csr ≠ 0) :
    SelfSigned C csr :=
  (estServerCheckCsr_eq_zero_iff C).mp (not_not.mp h)

/-- Who gets past the first part is authorized and has sent a request. -/
theorem admitted_call {next : AuthResult → X509Req → Option Outcome}
    (h : admitted C ctx conn r enrollReq next = some out) (hcall : out.call = some call) :
    ∃ auth csr, estEnrollAuth C ctx conn r.ssl r.pathSeg enrollReq r.body = some auth ∧
      auth.state.authorized = true ∧ estServerParseCsr C r.body = some csr ∧
      next auth csr = some out := by
  unfold admitted at h
  split at h
  · rw [Option.some.injEq] at h
    rw [← h] at hcall
    cases hcall
  · rw [Option.bind_eq_bind, Option.bind_eq_some_iff] at h
    obtain ⟨auth, hauth, h⟩ := h
    cases hstate : authError auth.state with
    | some rc =>
      simp only [hstate, Option.some.injEq] at h
      rw [← h] at hcall
      cases hcall
    | none =>
      simp only [hstate] at h
      cases hcsr : auth.csr with
      | some csr =>
        simp only [hcsr, Option.some_or] at h
        exact ⟨auth, csr, hauth, (authError_eq_none_iff _).mp hstate,
          (estEnrollAuth_path hauth).parsed hcsr, h⟩
      | none =>
        simp only [hcsr, Option.none_or] at h
        split at h
        · rw [Option.some.injEq] at h
          rw [← h] at hcall
          cases hcall
        · rename_i csr hparse
          exact ⟨auth, csr, hauth, (authError_eq_none_iff _).mp hstate, hparse, h⟩

theorem requestChecks_passed {csr : X509Req} {body : Bytes}
    (h : requestChecks C A ctx r csr body = some .none) :
    (clientIsRa r.peerCert = true ∨ estTlsUidAuth ctx r.ssl csr = some .none) ∧
    (ctx.enforceCsrattrs = true → estServerAllCsrattrsPresent C A ctx body r.peerCert = .none) := by
  unfold requestChecks at h
  rw [Option.map_eq_some_iff] at h
  obtain ⟨pop, hpop, h⟩ := h
  split at h
  · cases h
  · rename_i hok
    rw [not_not] at hok
    subst hok
    constructor
    · unfold popCheck at hpop
      split at hpop
      · exact Or.inl (by assumption)
      · exact Or.inr hpop
    · intro hon
      split at h
      · cases h
      · rename_i hattrs
        by_contra hmissing
        exact hattrs ⟨hon, hmissing⟩

theorem rekey_ok {csr given : X509Req} {privKey : EvpPkey}
    (h : rekey C ctx csr privKey = .ok given) : Rekeyed C ctx csr given privKey := by
  unfold rekey reqSetPubkey estX509ReqSign at h
  cases hpub : C.setPubkey privKey with
  | none =>
    simp only [hpub, Option.map_none] at h
    cases h
  | some pub =>
    simp only [hpub, Option.map_some] at h
    cases hsign : C.sign { csr with pubKey := pub } privKey ctx.signingDigest with
    | none =>
      simp only [hsign, Option.map_none] at h
      cases h
    | some signature =>
      simp only [hsign, Option.map_some] at h
      split at h
      · cases h
      · rename_i hcheck
        rw [Except.ok.injEq] at h
        subst h
        exact ⟨rfl, rfl, hpub, hsign, selfSigned_of_check hcheck⟩

/-- The way to the CA in the handler for the client's own key. -/
theorem simpleEnroll_gate {cb : CaRequest → CaAnswer} (hreq : enrollReq ≠ .serverKeygen)
    (h : admitted C ctx conn r enrollReq (fun auth csr =>
      if estServerCheckCsr C csr ≠ 0 then some (refuse .badPkcs10 (some auth) auth.conn)
      else
        (requestChecks C A ctx r csr r.body).map fun rc =>
          if rc ≠ .none then refuse rc (some auth) auth.conn
          else askCa ctx cb r enrollReq auth) = some out)
    (hcall : out.call = some call) : Gate C A ctx conn r enrollReq call ∧ out.key = none := by
  obtain ⟨auth, csr, hauth, hstate, hparse, hnext⟩ := admitted_call h hcall
  split at hnext
  · rw [Option.some.injEq] at hnext
    rw [← hnext] at hcall
    cases hcall
  · rename_i hcheck
    rw [Option.map_eq_some_iff] at hnext
    obtain ⟨rc, hchecks, hout⟩ := hnext
    split at hout
    · rw [← hout] at hcall
      cases hcall
    · rename_i hok
      rw [not_not] at hok
      subst hok hout
      obtain ⟨hpop, hattrs⟩ := requestChecks_passed hchecks
      rw [askCa, Option.some.injEq] at hcall
      subst hcall
      exact ⟨⟨rfl, ⟨auth, hauth, hstate⟩, csr, csr, hparse,
        .asSent hreq rfl (selfSigned_of_check hcheck), hpop, hattrs⟩, rfl⟩

/-- The way to the CA in the handler that generates a key. -/
theorem serverKeygen_gate {cb : CaRequest → Bytes → CaAnswer × Bytes}
    {generated : EstError × Option EvpPkey} (hgenerated : ctx.keygenCb = some generated)
    (h : admitted C ctx conn r .serverKeygen
      (fun auth csr => generateAndEnroll C A ctx cb generated r auth csr) = some out)
    (hcall : out.call = some call) :
    Gate C A ctx conn r .serverKeygen call ∧
      ∀ key, out.key = some key → ∃ text, call.key = some text ∧ (cb call.request text).2 = key := by
  obtain ⟨auth, csr, hauth, hstate, hparse, hnext⟩ := admitted_call h hcall
  unfold generateAndEnroll at hnext
  split at hnext
  · rename_i privKey
    split at hnext
    · rw [Option.some.injEq] at hnext
      rw [← hnext] at hcall
      cases hcall
    · rename_i der hder
      rw [Option.bind_eq_bind, Option.bind_eq_some_iff] at hnext
      obtain ⟨b64der, htext, hnext⟩ := hnext
      split at hnext
      · rw [Option.some.injEq] at hnext
        rw [← hnext] at hcall
        cases hcall
      · rename_i given hrekey
        rw [Option.map_eq_some_iff] at hnext
        obtain ⟨rc, hchecks, hout⟩ := hnext
        split at hout
        · rw [← hout] at hcall
          cases hcall
        · rename_i hok
          rw [not_not] at hok
          subst hok hout
          obtain ⟨hpop, hattrs⟩ := requestChecks_passed hchecks
          rw [eq_of_estBase64Encode_twice htext] at hcall ⊢
          simp only [askCaForKey, Option.some.injEq] at hcall
          subst hcall
          refine ⟨⟨rfl, ⟨auth, hauth, hstate⟩, csr, given, hparse,
            .rekeyed given privKey der rfl hgenerated (rekey_ok hrekey) rfl hder rfl, hpop, hattrs⟩,
            ?_⟩
          intro key hkey
          refine ⟨_, rfl, ?_⟩
          simp only [askCaForKey] at hkey
          split at hkey
          · exact Option.some.inj hkey
          · cases hkey
  · rw [Option.some.injEq] at hnext
    rw [← hnext] at hcall
    cases hcall

end Stages

section Gates

variable {C A ctx} {conn : MgConnection} {r : EnrollRequest} {enrollReq : EnrollReqType}
  {out : Outcome} {call : CaCall}

/-- Every path of the two handlers that calls the CA. -/
theorem estHandleEnroll_call (h : estHandleEnroll C A ctx conn r enrollReq = some out)
    (hcall : out.call = some call) :
    Gate C A ctx conn r enrollReq call ∧
      ∀ key, out.key = some key → ∃ cb text, ctx.estServerKeygenPkcs10Cb = some cb ∧
        call.key = some text ∧ (cb call.request text).2 = key := by
  cases enrollReq with
  | simpleEnroll =>
    simp only [estHandleEnroll, estHandleSimpleEnroll] at h
    split at h
    · rw [Option.some.injEq] at h
      rw [← h] at hcall
      cases hcall
    · obtain ⟨hgate, hkey⟩ := simpleEnroll_gate (by decide) h hcall
      exact ⟨hgate, fun key hsome => by rw [hkey] at hsome; cases hsome⟩
  | reenroll =>
    simp only [estHandleEnroll, estHandleSimpleEnroll] at h
    split at h
    · rw [Option.some.injEq] at h
      rw [← h] at hcall
      cases hcall
    · obtain ⟨hgate, hkey⟩ := simpleEnroll_gate (by decide) h hcall
      exact ⟨hgate, fun key hsome => by rw [hkey] at hsome; cases hsome⟩
  | serverKeygen =>
    simp only [estHandleEnroll, estHandleServerKeygen] at h
    split at h
    · rename_i cb generated hcb hgenerated
      obtain ⟨hgate, hkey⟩ := serverKeygen_gate hgenerated h hcall
      refine ⟨hgate, ?_⟩
      intro key hsome
      obtain ⟨text, htext, hleft⟩ := hkey key hsome
      exact ⟨cb, text, hcb, htext, hleft⟩
    · rw [Option.some.injEq] at h
      rw [← h] at hcall
      cases hcall

theorem GivenToCa.subject {csr given : X509Req} (h : GivenToCa C ctx r csr call given) :
    given.subject = csr.subject := by
  cases h with
  | asSent => rfl
  | rekeyed given privKey der hreq hgenerated hrekeyed => exact hrekeyed.subject

variable (C A ctx conn r enrollReq)

/-- No verdict without evidence; and over CoAP the request that the enhanced
mode has checked is the one that the CA gets. -/
theorem authorization_rests_on_evidence :
    (∀ auth, estEnrollAuth C ctx conn r.ssl r.pathSeg enrollReq r.body = some auth →
      Evidence C ctx r.ssl r.body auth) ∧
    ∀ out call, estHandleEnroll C A ctx conn r enrollReq = some out → out.call = some call →
      ctx.transportMode = .coap → ctx.enhancedCertAuthEnabled = true →
      ctx.enhancedCertAuthCsrCheck = true →
      ∃ cert csr given, Verified r.ssl cert ∧ estServerParseCsr C r.body = some csr ∧
        GivenToCa C ctx r csr call given ∧ CsrCheckPassed C ctx r.ssl cert given := by
  refine ⟨fun auth hauth => (estEnrollAuth_path hauth).evidence, ?_⟩
  intro out call h hcall hcoap heca hcheck
  obtain ⟨-, ⟨auth, hauth, hstate⟩, csr, given, hparse, hgiven, -⟩ := (estHandleEnroll_call h hcall).1
  obtain ⟨cert, hverified, henhanced⟩ := (estEnrollAuth_path hauth).evidence.coap hcoap hstate
  obtain ⟨checked, hchecked, chain, hchain, hpassed⟩ := (henhanced heca).2 hcheck
  rw [hparse, Option.some.injEq] at hchecked
  subst hchecked
  refine ⟨cert, csr, given, hverified, hparse, hgiven, chain, hchain, ?_⟩
  rw [csrCheck_congr ctx hgiven.subject]
  exact hpassed

end Gates

section Instances

open LibEst.Server.Reference

/-- An enrollment of the reference device. -/
def devRequest : EnrollRequest where
  ssl := devSession
  peerCert := some devCert
  contentType := ascii "application/pkcs10"
  body := clientBody
  pathSeg := none
  writes := true

def aliceHeader : MgConnection := connWith "Basic YWxpY2U6cHc="

theorem devRequest_contentType (ctx : EstCtx) :
    wrongContentType ctx devRequest.contentType = false := by
  have hprefix : (devRequest.contentType.take 18 != ascii "application/pkcs10") = false := by
    decide
  rw [wrongContentType, hprefix, Bool.and_false]

theorem estServerParseCsr_known {C : Crypto} {body : Bytes} {req : X509Req}
    {other : Bytes → Option X509Req}
    (h : C.d2iX509Req = fun given => if given = body then some req else other given) :
    estServerParseCsr C body = some req := by
  rw [estServerParseCsr, h]
  exact if_pos rfl

theorem clientBody_parsed : estServerParseCsr hostCrypto clientBody = some clientReq :=
  estServerParseCsr_known rfl

theorem clientBody_ne_nil : clientBody ≠ [] := by
  rw [clientBody, ascii, ne_eq, List.map_eq_nil_iff, String.toList_append, String.toList_append,
    List.append_eq_nil_iff, List.append_eq_nil_iff]
  rintro ⟨⟨hfront, -⟩, -⟩
  exact absurd (String.toList_eq_nil_iff.mp hfront) (by simp)

theorem clientReq_checked : ¬ estServerCheckCsr hostCrypto clientReq ≠ 0 := by
  simp [estServerCheckCsr, hostCrypto]

theorem devRequest_checked {ctx : EstCtx} {csr : X509Req} {body : Bytes}
    (hattrs : csr.attributes = []) (hpop : ctx.serverEnablePop = false)
    (henforce : ctx.enforceCsrattrs = false) :
    requestChecks hostCrypto hostAsn1 ctx devRequest csr body = some .none := by
  have hra : clientIsRa devRequest.peerCert = false := rfl
  simp [requestChecks, popCheck, hra, estTlsUidAuth, getAttrByNid, hattrs, hpop, henforce]

section Alice

variable (ctx : EstCtx) {conn : MgConnection} (hsource : conn.source = aliceHeader.source)
  (hbasic : ctx.authMode = .basic)

include hsource hbasic

theorem aliceHeader_credentials :
    (headerCredentials hostCrypto ctx conn).result = .good ∧
    (headerCredentials hostCrypto ctx conn).userId = ascii "alice" ∧
    (headerCredentials hostCrypto ctx conn).ah.user = some (ascii "alice") ∧
    (headerCredentials hostCrypto ctx conn).csr = none := by
  have hparsed : (parseScheme hostCrypto.bioRead .basic [] (ascii "Basic YWxpY2U6cHc=")
      estCreateAh).map (fun ah => (ah.mode, ah.user)) = some (.basic, some (ascii "alice")) := by
    decide +kernel
  rw [Option.map_eq_some_iff] at hparsed
  obtain ⟨ah, hscheme, hah⟩ := hparsed
  rw [Prod.mk.injEq] at hah
  have hheader : aliceHeader.source =
      { authorization := some (ascii "Basic YWxpY2U6cHc="), stack := [] } := rfl
  have hshort : (ascii "alice").take mgUidMax = ascii "alice" := by decide
  simp [headerCredentials, mgParseAuthHeader, hsource, hheader, hbasic, hscheme, hah.1, hah.2, hshort]

/-- The application of a reference server knows alice. -/
theorem aliceHeader_authorized (enrollReq : EnrollReqType) (hmode : ctx.transportMode = .http)
    (hcb : ctx.estHttpAuthCb = some (userIs "alice")) (hrequired : ctx.requireHttpAuth = .required)
    (heca : ctx.enhancedCertAuthEnabled = false) :
    ∃ auth, estEnrollAuth hostCrypto ctx conn devSession none enrollReq clientBody =
        some auth ∧ auth.state = .httpAuth ∧ auth.csr = none ∧
      auth.conn = { conn with userId := ascii "alice" } ∧
      ∃ call, Accepted ctx auth call ∧ call.ah.user = some (ascii "alice") := by
  obtain ⟨hgood, huser, hname, hcsr⟩ := aliceHeader_credentials ctx hsource hbasic
  have htls : checkForTlsCertAuth devSession = (true, some devCert, .certAuth) := rfl
  rw [estEnrollAuth_required hostCrypto conn devSession none enrollReq clientBody hmode hcb
    hrequired htls]
  have hcredentials : credentials hostCrypto ctx conn devSession (some devCert) .certAuth
      clientBody = headerCredentials hostCrypto ctx conn := by
    simp [credentials, heca]
  have haccepted : userIs "alice" ⟨(headerCredentials hostCrypto ctx conn).ah,
      some devCert, none⟩ = true := by
    simp [userIs, hname]
  refine ⟨_, rfl, ?_⟩
  simp only [ne_eq, not_true_eq_false, false_and, if_false, hcredentials, httpStage, hgood,
    askApplication, haccepted, if_true, hcsr, huser, true_and]
  exact ⟨_, ⟨userIs "alice", hcb, rfl, haccepted⟩, hname⟩

end Alice

/-- An authorized request of the reference device is parsed and goes on. -/
theorem devRequest_admitted {ctx : EstCtx} {conn : MgConnection} {enrollReq : EnrollReqType}
    {auth : AuthResult} {next : AuthResult → X509Req → Option Outcome}
    (hauth : estEnrollAuth hostCrypto ctx conn devSession none enrollReq clientBody = some auth)
    (hstate : auth.state.authorized = true) (hcsr : auth.csr = none ∨ auth.csr = some clientReq) :
    admitted hostCrypto ctx conn devRequest enrollReq next = next auth clientReq := by
  unfold admitted
  rw [devRequest_contentType]
  simp only [Bool.false_eq_true, if_false]
  have hbody : devRequest.body = clientBody := by simp only [devRequest]
  have hbound : estEnrollAuth hostCrypto ctx conn devRequest.ssl devRequest.pathSeg enrollReq
      devRequest.body = some auth := by
    rw [hbody]
    exact hauth
  have hparsed : estServerParseCsr hostCrypto devRequest.body = some clientReq := by
    rw [hbody]
    exact clientBody_parsed
  have hcsr : auth.csr.or (estServerParseCsr hostCrypto devRequest.body) = some clientReq := by
    rcases hcsr with hcsr | hcsr
    · rw [hcsr, Option.none_or, hparsed]
    · rw [hcsr, Option.some_or]
  simp only [hbound, Option.bind_eq_bind, Option.bind_some, (authError_eq_none_iff _).mpr hstate, hcsr]

/-- With the checks off, an authorized request of the device gets to the CA. -/
theorem devRequest_enrolled {ctx : EstCtx} {conn : MgConnection} {enrollReq : EnrollReqType}
    {auth : AuthResult} (hreq : enrollReq ≠ .serverKeygen)
    (henroll : ctx.estEnrollPkcs10Cb = some issue) (hreenroll : ctx.estReenrollPkcs10Cb = some issue)
    (hpop : ctx.serverEnablePop = false) (henforce : ctx.enforceCsrattrs = false)
    (hauth : estEnrollAuth hostCrypto ctx conn devSession none enrollReq clientBody = some auth)
    (hstate : auth.state.authorized = true) (hcsr : auth.csr = none ∨ auth.csr = some clientReq) :
    estHandleEnroll hostCrypto hostAsn1 ctx conn devRequest enrollReq =
      some (askCa ctx issue devRequest enrollReq auth) := by
  cases enrollReq with
  | simpleEnroll | reenroll =>
    simp only [estHandleEnroll, estHandleSimpleEnroll, henroll, hreenroll]
    rw [devRequest_admitted hauth hstate hcsr, if_neg clientReq_checked,
      devRequest_checked rfl hpop henforce]
    rfl
  | serverKeygen => exact absurd rfl hreq

/-- The key that the client gets is that of the generated pair. -/
def ReturnsPair (C : Crypto) (ctx : EstCtx) (out : Outcome) : Prop :=
  ∀ key, out.key = some key → ∃ privKey der, ctx.keygenCb = some (.none, some privKey) ∧
    C.i2dPrivateKey privKey = some der ∧ key = base64Text true der

/-- An application that puts a key of its own into the place of the generated one. -/
def ownKeyCtx : EstCtx :=
  { authCtx with
    estServerKeygenPkcs10Cb := some fun request _ => (issue request, ascii "own key") }

/-- A CoAP server that knows devices by their certificates and checks that their
requests keep the name. -/
def coapCtx : EstCtx :=
  { authCtx with
    transportMode := .coap
    estHttpAuthCb := some (userIs "dev")
    enhancedCertAuthEnabled := true
    enhancedCertAuthCsrCheck := true
    enchdCertMfgsInfoList := some (Vector.replicate numSupportedMfg
      { nid := nidCommonName, truststore := some { id := 1 }, storeCtx := true }) }

theorem handleEnhancedCertAuth_checked {C : Crypto} {ctx : EstCtx} {ssl : Ssl} {cert : X509}
    {chain : List X509} {csrBuf : Bytes} {csr : X509Req} {ah : AuthHdr} {mfg : Option Nat}
    (hchain : ssl.peerChain = some chain)
    (hmfg : estEnhcdCertAuthGetMfg C cert chain ctx = (.none, mfg))
    (hcsr : estServerParseCsr C csrBuf = some csr)
    (hcheck : performEnhancedCertAuthCsrCheck ctx cert csr mfg = .good)
    (hheader : (buildEnhancedCertAuthHeader ctx ah cert (identityNid ctx mfg)).1 = .good) :
    handleEnhancedCertAuth C ctx ssl cert csrBuf ah true =
      { result := .good
        ah := (buildEnhancedCertAuthHeader ctx ah cert (identityNid ctx mfg)).2
        csr := some csr } := by
  simp only [handleEnhancedCertAuth, hchain, hmfg, checkedCsr, hcsr, hcheck, hheader, true_or,
    if_true]

/-- A device whose certificate passes the enhanced checks and the application. -/
theorem estEnrollAuth_coap {C : Crypto} {ctx : EstCtx} {ssl : Ssl} {cert : X509} {csrBuf : Bytes}
    {cb : AuthCall → Bool} {ah : AuthHdr} {csr : Option X509Req} (conn : MgConnection)
    (enrollReq : EnrollReqType)
    (htls : checkForTlsCertAuth ssl = (true, some cert, .certAuth))
    (hmode : ctx.transportMode = .coap) (heca : ctx.enhancedCertAuthEnabled = true)
    (hcb : ctx.estHttpAuthCb = some cb) (hbody : csrBuf ≠ [])
    (houtcome : handleEnhancedCertAuth C ctx ssl cert csrBuf estCreateAh
      ctx.enhancedCertAuthCsrCheck = { result := .good, ah := ah, csr := csr })
    (haccepted : cb ⟨ah, some cert, none⟩ = true) :
    ∃ auth, estEnrollAuth C ctx conn ssl none enrollReq csrBuf = some auth ∧
      auth.state = .httpAuth ∧ auth.csr = csr := by
  simp only [estEnrollAuth, htls, hmode, heca, hcb, hbody, houtcome, coapStage, if_true, if_false,
    Option.map_some, askApplication, haccepted]
  exact ⟨_, rfl, rfl, rfl⟩

theorem coapCtx_authorized (conn : MgConnection) :
    ∃ auth, estEnrollAuth hostCrypto coapCtx conn devSession none .reenroll clientBody =
        some auth ∧ auth.state = .httpAuth ∧ auth.csr = some clientReq := by
  have hmfg : estEnhcdCertAuthGetMfg hostCrypto devCert [devCert] coapCtx = (.none, none) := by
    decide
  have hcheck : performEnhancedCertAuthCsrCheck coapCtx devCert clientReq none = .good := by decide
  have hheader : (buildEnhancedCertAuthHeader coapCtx estCreateAh devCert
      (identityNid coapCtx none)).1 = .good ∧
      (buildEnhancedCertAuthHeader coapCtx estCreateAh devCert
        (identityNid coapCtx none)).2.user = some (ascii "dev") := by
    decide
  have hchain : devSession.peerChain = some [devCert] := rfl
  have htls : checkForTlsCertAuth devSession = (true, some devCert, .certAuth) := rfl
  have houtcome := handleEnhancedCertAuth_checked hchain hmfg clientBody_parsed hcheck hheader.1
  have haccepted : userIs "dev" ⟨(buildEnhancedCertAuthHeader coapCtx estCreateAh devCert
      (identityNid coapCtx none)).2, some devCert, none⟩ = true := by
    simp [userIs, hheader.2]
  exact estEnrollAuth_coap conn .reenroll htls rfl rfl rfl clientBody_ne_nil houtcome haccepted

theorem checked_request_reaches_ca : ∃ out call cert csr given,
    estHandleEnroll hostCrypto hostAsn1 coapCtx aliceHeader devRequest .reenroll = some out ∧
    out.call = some call ∧ Verified devSession cert ∧
    estServerParseCsr hostCrypto devRequest.body = some csr ∧
    GivenToCa hostCrypto coapCtx devRequest csr call given ∧
    CsrCheckPassed hostCrypto coapCtx devSession cert given := by
  obtain ⟨auth, hauth, hstate, hcsr⟩ := coapCtx_authorized aliceHeader
  have hout := devRequest_enrolled (by decide) rfl rfl rfl rfl hauth (by rw [hstate]; rfl)
    (Or.inr hcsr)
  obtain ⟨cert, csr, given, hevidence⟩ :=
    (authorization_rests_on_evidence hostCrypto hostAsn1 coapCtx aliceHeader devRequest
      .reenroll).2 _ _ hout rfl rfl rfl rfl
  exact ⟨_, _, cert, csr, given, hout, rfl, hevidence⟩

end Instances

end LibEst.Server.Enroll
