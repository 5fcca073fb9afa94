import LibEst.Server.Context

/-! Enhanced certificate authentication: which manufacturer a peer certificate
belongs to, whether its identity is carried over into the request, and the
header that is built from it in place of the client's own. -/
namespace LibEst.Server.EnhancedCertAuth

open LibEst.Basic LibEst.OpenSsl LibEst.Lib.ByteString
open LibEst.Server.AuthHeader LibEst.Server.Context

variable (C : Crypto)

section Manufacturers

variable (peer : X509) (chain : List X509)

/-- The loop over the slots from `i` on. A verification result other than zero,
errors included, counts as a match. -/
def getMfgFrom (i : Nat) (rv : EstError) : List MfgInfo → EstError × Option Nat
  | [] => (rv, none)
  | info :: rest =>
      match info.truststore, info.storeCtx with
      | some store, true =>
          if !C.storeCtxInit store peer chain then (.malloc, none)
          else if C.verifyCert store peer chain = 0 then getMfgFrom (i + 1) .none rest
          else (.none, some i)
      | _, _ => getMfgFrom (i + 1) rv rest

/-- The slot whose trust store verifies the peer, if there is one. -/
def estEnhcdCertAuthGetMfg (ctx : EstCtx) : EstError × Option Nat :=
  match ctx.enchdCertMfgsInfoList with
  | none => (.none, none)
  | some infos => getMfgFrom C peer chain 0 .validation infos.toList

/-- The first slot in use that does not fail verification fails to get a store
context at all. -/
def InitFails : List MfgInfo → Prop
  | [] => False
  | info :: rest =>
      match info.truststore, info.storeCtx with
      | some store, true =>
          C.storeCtxInit store peer chain = false ∨
            (C.verifyCert store peer chain = 0 ∧ InitFails rest)
      | _, _ => InitFails rest

theorem getMfgFrom_cases (i : Nat) {rv : EstError} (hrv : rv = .none ∨ rv = .validation)
    (infos : List MfgInfo) :
    ((getMfgFrom C peer chain i rv infos).1 = .none ∨
      (getMfgFrom C peer chain i rv infos).1 = .validation) ∧ ¬ InitFails C peer chain infos ∨
    (getMfgFrom C peer chain i rv infos).1 = .malloc ∧ InitFails C peer chain infos := by
  induction infos generalizing i rv with
  | nil => exact Or.inl ⟨hrv, id⟩
  | cons info rest ih =>
    unfold getMfgFrom InitFails
    split
    · rename_i store hstore hctx
      cases hinit : C.storeCtxInit store peer chain with
      | false => exact Or.inr ⟨rfl, Or.inl rfl⟩
      | true =>
        by_cases hverify : C.verifyCert store peer chain = 0
        · simpa [hverify] using ih (i + 1) (Or.inl rfl)
        · exact Or.inl ⟨by simp [hverify], by simp [hverify]⟩
    · exact ih (i + 1) hrv

end Manufacturers

section CsrCheck

/-- The text that the library takes a subject field for. -/
def subjectField (name : List NameEntry) (nid : Nid) : Option Bytes :=
  (nameField name nid).map cString

/-- The outcome of comparing a field of the certificate with that of the
request: absent in one of them, of another length, empty, or compared. -/
inductive FieldMatch where
  | missing
  | lengthMismatch
  | safecError
  | compared (equal : Bool)
  deriving DecidableEq

/-- Both fields are looked at up to 256 characters. -/
def compareField (peer : X509) (csr : X509Req) (nid : Nid) : FieldMatch :=
  match subjectField peer.subject nid, subjectField csr.subject nid with
  | some certField, some csrField =>
      let certLen := min certField.length (maxUidpwd + 1)
      let csrLen := min csrField.length (maxUidpwd + 1)
      if certLen ≠ csrLen then .lengthMismatch
      else if certLen = 0 then .safecError
      else .compared (certField.take certLen = csrField.take certLen)
  | _, _ => .missing

/-- The loop for a certificate of the local domain. `cmpInd` survives a slot
whose comparison fails to run. -/
def localCsrCheck (peer : X509) (csr : X509Req) (cmpInd : Bool) : List MfgInfo → Bool
  | [] => cmpInd
  | info :: rest =>
      match info.truststore, info.storeCtx with
      | some _, true =>
          match compareField peer csr info.nid with
          | .missing | .lengthMismatch => localCsrCheck peer csr true rest
          | .safecError => if cmpInd then localCsrCheck peer csr cmpInd rest else false
          | .compared equal => if equal then false else localCsrCheck peer csr true rest
      | _, _ => localCsrCheck peer csr cmpInd rest

def performEnhancedCertAuthCsrCheck (ctx : EstCtx) (peer : X509) (csr : X509Req)
    (mfgIndex : Option Nat) : AuthHdrResult :=
  match ctx.enchdCertMfgsInfoList with
  | none => .ecaCsrCheckFail
  | some infos =>
      match mfgIndex.bind (infos.toList[·]?) with
      | some info =>
          match compareField peer csr info.nid with
          | .missing | .lengthMismatch => .ecaCsrCheckFail
          | .safecError => .ecaErr
          | .compared equal => if equal then .good else .ecaCsrCheckFail
      | none => if localCsrCheck peer csr false infos.toList then .ecaCsrCheckFail else .good

theorem localCsrCheck_congr {peer : X509} {a b : X509Req} (hsubject : a.subject = b.subject)
    (cmpInd : Bool) (infos : List MfgInfo) :
    localCsrCheck peer a cmpInd infos = localCsrCheck peer b cmpInd infos := by
  induction infos generalizing cmpInd with
  | nil => rfl
  | cons info rest ih =>
    unfold localCsrCheck compareField
    rw [hsubject]
    simp only [ih]

/-- The check reads nothing of the request but its subject. -/
theorem csrCheck_congr (ctx : EstCtx) {peer : X509} {a b : X509Req} (hsubject : a.subject = b.subject)
    (mfgIndex : Option Nat) :
    performEnhancedCertAuthCsrCheck ctx peer a mfgIndex =
      performEnhancedCertAuthCsrCheck ctx peer b mfgIndex := by
  unfold performEnhancedCertAuthCsrCheck compareField
  simp only [hsubject, localCsrCheck_congr hsubject]

theorem csrCheck_ne_bad (ctx : EstCtx) (peer : X509) (csr : X509Req) (mfgIndex : Option Nat) :
    performEnhancedCertAuthCsrCheck ctx peer csr mfgIndex ≠ .bad := by
  unfold performEnhancedCertAuthCsrCheck
  split
  · decide
  · split
    · split <;> first | decide | (split <;> decide)
    · split <;> decide

end CsrCheck

/-- The user is the subject field, the password the configured one. -/
def buildEnhancedCertAuthHeader (ctx : EstCtx) (ah : AuthHdr) (peer : X509) (nid : Nid) :
    AuthHdrResult × AuthHdr :=
  match subjectField peer.subject nid with
  | none => (.ecaErr, { ah with mode := .basic })
  | some field =>
      (.good, { ah with
        mode := .basic
        user := some (strndup field (maxUidpwd + 1))
        pwd := some (strndup ctx.enhcdCertAuthPwd (maxUidpwd + 1)) })

/-- The subject field that names the peer: the manufacturer's, or that of the
local domain. -/
def identityNid (ctx : EstCtx) (mfgIndex : Option Nat) : Nid :=
  match ctx.enchdCertMfgsInfoList with
  | none => ctx.enhcdCertLocalPkiNid
  | some infos =>
      match mfgIndex.bind (infos.toList[·]?) with
      | some info => info.nid
      | none => ctx.enhcdCertLocalPkiNid

structure EcaOutcome where
  result : AuthHdrResult
  ah : AuthHdr
  /-- The parsed request, kept for the caller when the check is on. -/
  csr : Option X509Req
  deriving DecidableEq

/-- The check of the request, when it is on, and the request that it parsed. -/
def checkedCsr (ctx : EstCtx) (peer : X509) (csrBuf : Bytes) (csrCheck : Bool)
    (mfgIndex : Option Nat) : AuthHdrResult × Option X509Req :=
  if csrCheck then
    match estServerParseCsr C csrBuf with
    | none => (.ecaCsrParseFail, none)
    | some csr => (performEnhancedCertAuthCsrCheck ctx peer csr mfgIndex, some csr)
  else (.good, none)

def handleEnhancedCertAuth (ctx : EstCtx) (ssl : Ssl) (peer : X509) (csrBuf : Bytes) (ah : AuthHdr)
    (csrCheck : Bool) : EcaOutcome :=
  match ssl.peerChain with
  | none => { result := .ecaErr, ah := ah, csr := none }
  | some chain =>
      let (errCode, mfgIndex) := estEnhcdCertAuthGetMfg C peer chain ctx
      if errCode = .none ∨ errCode = .validation then
        let (checked, csr) := checkedCsr C ctx peer csrBuf csrCheck mfgIndex
        if checked = .good then
          let (result, ah) := buildEnhancedCertAuthHeader ctx ah peer (identityNid ctx mfgIndex)
          { result := result, ah := ah, csr := csr }
        else { result := checked, ah := ah, csr := csr }
      else { result := .bad, ah := ah, csr := none }

/-- What a header that may be shown to the application says about the peer and
the request. -/
structure EcaGood (ctx : EstCtx) (ssl : Ssl) (peer : X509) (csrBuf : Bytes) (csrCheck : Bool)
    (out : EcaOutcome) : Prop where
  chain : ∃ chain field, ssl.peerChain = some chain ∧
    subjectField peer.subject
      (identityNid ctx (estEnhcdCertAuthGetMfg C peer chain ctx).2) = some field ∧
    out.ah.mode = .basic ∧ out.ah.user = some (strndup field (maxUidpwd + 1)) ∧
    out.ah.pwd = some (strndup ctx.enhcdCertAuthPwd (maxUidpwd + 1)) ∧
    (csrCheck = true → ∃ csr, estServerParseCsr C csrBuf = some csr ∧ out.csr = some csr ∧
      performEnhancedCertAuthCsrCheck ctx peer csr
        (estEnhcdCertAuthGetMfg C peer chain ctx).2 = .good)
  kept : csrCheck = false → out.csr = none

theorem buildEnhancedCertAuthHeader_good {ctx : EstCtx} {ah : AuthHdr} {peer : X509} {nid : Nid}
    (h : (buildEnhancedCertAuthHeader ctx ah peer nid).1 = .good) :
    ∃ field, subjectField peer.subject nid = some field ∧
      (buildEnhancedCertAuthHeader ctx ah peer nid).2.mode = .basic ∧
      (buildEnhancedCertAuthHeader ctx ah peer nid).2.user =
        some (strndup field (maxUidpwd + 1)) ∧
      (buildEnhancedCertAuthHeader ctx ah peer nid).2.pwd =
        some (strndup ctx.enhcdCertAuthPwd (maxUidpwd + 1)) := by
  unfold buildEnhancedCertAuthHeader at h ⊢
  split at h
  · cases h
  · rename_i field hfield
    rw [hfield]
    exact ⟨field, rfl, rfl, rfl, rfl⟩

theorem handleEnhancedCertAuth_good {ctx : EstCtx} {ssl : Ssl} {peer : X509} {csrBuf : Bytes}
    {ah : AuthHdr} {csrCheck : Bool}
    (h : (handleEnhancedCertAuth C ctx ssl peer csrBuf ah csrCheck).result = .good) :
    EcaGood C ctx ssl peer csrBuf csrCheck
      (handleEnhancedCertAuth C ctx ssl peer csrBuf ah csrCheck) := by
  revert h
  unfold handleEnhancedCertAuth
  split
  · intro h
    cases h
  · rename_i chain hchain
    simp only
    split
    · split
      · rename_i hchecked
        intro h
        obtain ⟨field, hfield, hmode, huser, hpwd⟩ := buildEnhancedCertAuthHeader_good h
        refine ⟨⟨chain, field, hchain, hfield, hmode, huser, hpwd, ?_⟩, ?_⟩
        · rintro rfl
          unfold checkedCsr at hchecked ⊢
          cases hparse : estServerParseCsr C csrBuf with
          | none =>
            rw [hparse] at hchecked
            cases hchecked
          | some csr =>
            rw [hparse] at hchecked
            exact ⟨csr, rfl, rfl, hchecked⟩
        · rintro rfl
          rfl
      · rename_i hchecked
        exact fun h => absurd h hchecked
    · intro h
      cases h

/-- Without a failure of OpenSSL the header is never just bad. -/
theorem handleEnhancedCertAuth_bad_iff {ctx : EstCtx} {ssl : Ssl} {peer : X509} {csrBuf : Bytes}
    {ah : AuthHdr} {csrCheck : Bool} :
    (handleEnhancedCertAuth C ctx ssl peer csrBuf ah csrCheck).result = .bad ↔
      ∃ chain infos, ssl.peerChain = some chain ∧ ctx.enchdCertMfgsInfoList = some infos ∧
        InitFails C peer chain infos.toList := by
  have hbuild : ∀ nid, (buildEnhancedCertAuthHeader ctx ah peer nid).1 ≠ .bad := by
    intro nid
    unfold buildEnhancedCertAuthHeader
    split <;> simp
  unfold handleEnhancedCertAuth
  split
  · rename_i hchain
    simp [hchain]
  · rename_i chain hchain
    have hinit : ((estEnhcdCertAuthGetMfg C peer chain ctx).1 = .none ∨
        (estEnhcdCertAuthGetMfg C peer chain ctx).1 = .validation) ↔
        ¬ ∃ chain infos, ssl.peerChain = some chain ∧ ctx.enchdCertMfgsInfoList = some infos ∧
          InitFails C peer chain infos.toList := by
      unfold estEnhcdCertAuthGetMfg
      split
      · rename_i hinfos
        simp [hinfos]
      · rename_i infos hinfos
        rcases getMfgFrom_cases C peer chain 0 (Or.inr rfl) infos.toList with
          ⟨hok, hnot⟩ | ⟨hmalloc, hfails⟩
        · simp [hchain, hinfos, hok, hnot]
        · simp [hchain, hinfos, hmalloc, hfails]
    simp only
    split
    · rename_i hok
      constructor
      · intro hbad
        exfalso
        split at hbad
        · exact hbuild _ hbad
        · unfold checkedCsr at hbad
          split at hbad
          · split at hbad
            · cases hbad
            · exact csrCheck_ne_bad ctx peer _ _ hbad
          · cases hbad
      · intro hfails
        exact absurd hfails (hinit.mp hok)
    · rename_i hok
      exact ⟨fun _ => not_not.mp fun hnot => hok (hinit.mpr hnot), fun _ => rfl⟩

end LibEst.Server.EnhancedCertAuth
