import LibEst.Client.Api
import LibEst.Client.Reference

/-! The certificates of a cacerts response are verified with those among them that are
self-issued, and revocation lists are taken out of the buffer. -/
namespace LibEst.Client.CacertResponse

open LibEst.Basic LibEst.Lib.ByteString LibEst.OpenSsl
open LibEst.Client.Context LibEst.Client.Http LibEst.Client.Request LibEst.Client.Api
open LibEst.Client.Reference

inductive Pkcs7Type where
  | signed
  | signedAndEnveloped
  | other
  deriving DecidableEq

structure Pkcs7 (Cert : Type) where
  type : Pkcs7Type
  cert : Option (List Cert)
  crl : Option (List Bytes)

/-- What the functions ask memory for. -/
inductive Allocation where
  | b64Filter
  | cacertsBio
  | decodeBuffer
  | pkcs7Bio
  | certStore
  | storeCtx
  | crlFilter
  | crlBio
  deriving DecidableEq

/-- OpenSSL and the memory. `bioRead` is what can be read behind the base64 filter;
adding to the store and preparing its context may fail for each certificate, by its
index. `verifyCert` is given the callback, the store, the other certificates and the
one to verify. -/
structure CacertEnv (Cert : Type) where
  allocates : Allocation → Bool
  bioRead : Bytes → Bytes
  d2iPkcs7 : Bytes → Option (Pkcs7 Cert)
  i2dPkcs7 : Pkcs7 Cert → Option Bytes
  checkIssued : Cert → Cert → Int
  storeAdds : Nat → Bool
  storeCtxInit : Nat → Bool
  verifyCert : (Int → Int) → List Cert → List Cert → Cert → Int

/-- The callback logs a failure and leaves the result as it is. -/
def estClientCacertVerifyCb (ok : Int) : Int := ok

/-- The error code, the buffer of the caller, and the length that it is told. -/
structure Verdict where
  rc : EstError
  cacerts : Bytes
  cacertsLen : Nat
  deriving DecidableEq

section Functions

variable {Cert : Type} [DecidableEq Cert] (env : CacertEnv Cert)

def b64DecodeCacerts (cacerts : Bytes) : Except EstError Bytes :=
  if ¬ env.allocates .b64Filter then .error .malloc
  else if ¬ env.allocates .cacertsBio then .error .malloc
  else if ¬ env.allocates .decodeBuffer then .error .malloc
  else .ok (env.bioRead cacerts)

def createPkcs7 (decoded : Bytes) : Except EstError (Pkcs7 Cert) :=
  if ¬ env.allocates .pkcs7Bio then .error .malloc
  else
    match env.d2iPkcs7 decoded with
    | none => .error .loadCacerts
    | some pkcs7 => .ok pkcs7

def pkcs7ToStack (pkcs7 : Pkcs7 Cert) : Except EstError (List Cert) :=
  match pkcs7.type with
  | .other => .error .cacertVerification
  | .signed | .signedAndEnveloped =>
      match pkcs7.cert with
      | none => .error .cacertVerification
      | some stack => .ok stack

/-- From the buffer to the certificates. -/
def cacertStack (cacerts : Bytes) : Except EstError (Pkcs7 Cert × List Cert) := do
  let decoded ← b64DecodeCacerts env cacerts
  let pkcs7 ← createPkcs7 env decoded
  let stack ← pkcs7ToStack pkcs7
  pure (pkcs7, stack)

/-- A certificate that is in the store already is refused like one without memory. -/
def storeAddCert (i : Nat) (store : List Cert) (cert : Cert) : List Cert :=
  if cert ∈ store then store
  else if env.storeAdds i then store ++ [cert]
  else store

/-- The loop that builds the store, from certificate `i` on. -/
def trustedFrom : Nat → List Cert → List Cert → List Cert
  | _, [], store => store
  | i, cert :: rest, store =>
      trustedFrom (i + 1) rest
        (if env.checkIssued cert cert = x509VOk then storeAddCert env i store cert else store)

def trustedCacertsStore (stack : List Cert) : List Cert := trustedFrom env 0 stack []

/-- The loop that verifies, from certificate `i` on: whether one has failed, null where
the context of the store could not be prepared. -/
def verifyFrom (store stack : List Cert) : Nat → List Cert → Bool → Option Bool
  | _, [], failed => some failed
  | i, cert :: rest, failed =>
      if ¬ env.storeCtxInit i then none
      else
        let rv := env.verifyCert estClientCacertVerifyCb store stack cert
        verifyFrom store stack (i + 1) rest (if rv = 0 then true else failed)

/-- The structure without its lists is written over the buffer, which is zeroed before. -/
def estClientRemoveCrls (cacerts : Bytes) (pkcs7 : Pkcs7 Cert) : Verdict :=
  let zeros := List.replicate cacerts.length (0 : UInt8)
  match pkcs7.type with
  | .other => ⟨.cacertVerification, cacerts, cacerts.length⟩
  | .signed | .signedAndEnveloped =>
      match pkcs7.crl with
      | none => ⟨.none, cacerts, cacerts.length⟩
      | some _ =>
          if ¬ env.allocates .crlFilter then ⟨.malloc, cacerts, cacerts.length⟩
          else if ¬ env.allocates .crlBio then ⟨.malloc, cacerts, cacerts.length⟩
          else
            match env.i2dPkcs7 { pkcs7 with crl := none } with
            | none => ⟨.cacertVerification, zeros, cacerts.length⟩
            | some out =>
                if out = [] then ⟨.cacertVerification, zeros, cacerts.length⟩
                else if cacerts.length < out.length then ⟨.none, zeros, out.length⟩
                else ⟨.none, out ++ zeros.drop out.length, out.length⟩

def verifyCacertResp (ctx : Option ClientCtx) (cacerts : Option Bytes) : Verdict :=
  match ctx, cacerts with
  | some _, some cacerts =>
      let leave (rc : EstError) : Verdict := ⟨rc, cacerts, cacerts.length⟩
      match cacertStack env cacerts with
      | .error rv => leave rv
      | .ok (pkcs7, stack) =>
          if ¬ env.allocates .certStore then leave .malloc
          else
            let store := trustedCacertsStore env stack
            if ¬ env.allocates .storeCtx then leave .malloc
            else
              match verifyFrom env store stack 0 stack false with
              | none => leave .malloc
              | some failed =>
                  let removed := estClientRemoveCrls env cacerts pkcs7
                  if failed then { removed with rc := .cacertVerification } else removed
  | _, _ => ⟨.invalidParameters, cacerts.getD [], (cacerts.getD []).length⟩

end Functions

section Steps

variable {Cert : Type} (env : CacertEnv Cert)

def SelfIssued (cert : Cert) : Prop := env.checkIssued cert cert = x509VOk

/-- There is memory for at least one copy of the certificate in the store. -/
def Stored (stack : List Cert) (cert : Cert) : Prop :=
  ∃ i, stack[i]? = some cert ∧ env.storeAdds i

/-- Lists that come with the certificates can be taken out. -/
def CrlsGo (pkcs7 : Pkcs7 Cert) : Prop :=
  pkcs7.crl ≠ none →
    env.allocates .crlFilter ∧ env.allocates .crlBio ∧
      ∃ out, env.i2dPkcs7 { pkcs7 with crl := none } = some out ∧ out ≠ []

variable {env}

theorem Stored.mem {stack : List Cert} {c : Cert} (h : Stored env stack c) : c ∈ stack := by
  obtain ⟨i, hi, -⟩ := h
  exact List.mem_of_getElem? hi

/-- Only a result of 0 counts as a failure. -/
theorem verifyFrom_eq_false (store stack rest : List Cert) (i : Nat) (failed : Bool) :
    verifyFrom env store stack i rest failed = some false ↔
      failed = false ∧ (∀ j < rest.length, env.storeCtxInit (i + j)) ∧
        ∀ c ∈ rest, env.verifyCert estClientCacertVerifyCb store stack c ≠ 0 := by
  induction rest generalizing i failed with
  | nil => simp [verifyFrom]
  | cons cert rest ih =>
    have hinits : (∀ j < (cert :: rest).length, env.storeCtxInit (i + j)) ↔
        env.storeCtxInit i ∧ ∀ j < rest.length, env.storeCtxInit (i + 1 + j) := by
      rw [List.length_cons, Nat.forall_lt_succ_left]
      simp only [Nat.add_zero, Nat.add_assoc, Nat.add_comm 1]
    rw [verifyFrom, hinits, List.forall_mem_cons]
    by_cases hinit : env.storeCtxInit i = true
    · rw [if_neg (not_not.mpr hinit)]
      dsimp only
      rw [ih]
      by_cases hzero : env.verifyCert estClientCacertVerifyCb store stack cert = 0
      · simp [hzero]
      · simp [hzero, hinit]
    · rw [if_pos hinit]
      simp [hinit]

theorem pkcs7ToStack_ok {pkcs7 : Pkcs7 Cert} {stack : List Cert}
    (h : pkcs7ToStack pkcs7 = .ok stack) : pkcs7.type ≠ .other := by
  intro htype
  unfold pkcs7ToStack at h
  rw [htype] at h
  cases h

theorem cacertStack_type {cacerts : Bytes} {pkcs7 : Pkcs7 Cert} {stack : List Cert}
    (h : cacertStack env cacerts = .ok (pkcs7, stack)) : pkcs7.type ≠ .other := by
  unfold cacertStack at h
  cases hdecode : b64DecodeCacerts env cacerts with
  | error rv =>
    rw [hdecode] at h
    cases h
  | ok decoded =>
    cases hcreate : createPkcs7 env decoded with
    | error rv =>
      rw [hdecode] at h
      simp only [bind, Except.bind, hcreate] at h
      cases h
    | ok found =>
      cases hstack : pkcs7ToStack found with
      | error rv =>
        rw [hdecode] at h
        simp only [bind, Except.bind, hcreate, hstack] at h
        cases h
      | ok certs =>
        rw [hdecode] at h
        simp only [bind, Except.bind, hcreate, hstack] at h
        cases h
        exact pkcs7ToStack_ok hstack

theorem cacertStack_error {cacerts : Bytes} {rv : EstError}
    (h : cacertStack env cacerts = .error rv) : rv ≠ .none := by
  intro hnone
  subst hnone
  unfold cacertStack b64DecodeCacerts createPkcs7 pkcs7ToStack at h
  simp only [bind, Except.bind, pure, Except.pure] at h
  grind

/-- Taking the lists out succeeds for a structure that certificates were read from. -/
theorem estClientRemoveCrls_none {pkcs7 : Pkcs7 Cert} (htype : pkcs7.type ≠ .other)
    (cacerts : Bytes) :
    (estClientRemoveCrls env cacerts pkcs7).rc = .none ↔ CrlsGo env pkcs7 := by
  unfold estClientRemoveCrls CrlsGo
  cases hcrl : pkcs7.crl with
  | none => cases htypes : pkcs7.type <;> simp_all
  | some crls =>
    cases hout : env.i2dPkcs7 { pkcs7 with crl := none } with
    | none => cases htypes : pkcs7.type <;> grind
    | some out => cases htypes : pkcs7.type <;> grind

end Steps

section Verification

variable {Cert : Type} [DecidableEq Cert] (env : CacertEnv Cert)

/-- The result for one of the certificates of the response. -/
def result (stack : List Cert) (cert : Cert) : Int :=
  env.verifyCert estClientCacertVerifyCb (trustedCacertsStore env stack) stack cert

/-- A response is accepted only with every certificate verified by the self-issued ones,
and one that is not verified has it refused. -/
structure VerifiesAll (ctx : Option ClientCtx) (cacerts : Option Bytes) : Prop where
  accepted : (verifyCacertResp env ctx cacerts).rc = .none →
    ∃ text pkcs7 stack, cacerts = some text ∧ cacertStack env text = .ok (pkcs7, stack) ∧
      (∀ cert ∈ stack, result env stack cert = 1) ∧
      ∀ cert, cert ∈ trustedCacertsStore env stack ↔ cert ∈ stack ∧ SelfIssued env cert
  refused : ∀ text pkcs7 stack, cacerts = some text →
    cacertStack env text = .ok (pkcs7, stack) →
    ((∃ i < stack.length, ¬ env.storeCtxInit i) ∨ ∃ cert ∈ stack, result env stack cert ≠ 1) →
    (verifyCacertResp env ctx cacerts).rc ≠ .none

/-- There is memory for everything, and no verification returns 0. -/
structure NoneFails (pkcs7 : Pkcs7 Cert) (stack : List Cert) : Prop where
  allocates : env.allocates .certStore ∧ env.allocates .storeCtx
  inits : ∀ i < stack.length, env.storeCtxInit i
  nonzero : ∀ cert ∈ stack, result env stack cert ≠ 0
  crls : CrlsGo env pkcs7

variable {env}

theorem mem_storeAddCert (i : Nat) (store : List Cert) (cert c : Cert) :
    c ∈ storeAddCert env i store cert ↔ c ∈ store ∨ (c = cert ∧ env.storeAdds i) := by
  unfold storeAddCert
  by_cases hmem : cert ∈ store
  · rw [if_pos hmem]
    constructor
    · exact Or.inl
    · intro h
      cases h with
      | inl h => exact h
      | inr h => exact h.1 ▸ hmem
  · rw [if_neg hmem]
    by_cases hadds : env.storeAdds i = true
    · rw [if_pos hadds, List.mem_append, List.mem_singleton]
      simp [hadds]
    · rw [if_neg hadds]
      simp [hadds]

theorem mem_trustedFrom (rest : List Cert) (i : Nat) (store : List Cert) (c : Cert) :
    c ∈ trustedFrom env i rest store ↔
      c ∈ store ∨ (SelfIssued env c ∧ ∃ j, rest[j]? = some c ∧ env.storeAdds (i + j)) := by
  induction rest generalizing i store with
  | nil => simp [trustedFrom]
  | cons cert rest ih =>
    have hsplit : (∃ j, (cert :: rest)[j]? = some c ∧ env.storeAdds (i + j)) ↔
        (c = cert ∧ env.storeAdds i) ∨ ∃ j, rest[j]? = some c ∧ env.storeAdds (i + 1 + j) := by
      constructor
      · intro h
        obtain ⟨j, hj, hadds⟩ := h
        cases j with
        | zero => exact Or.inl ⟨(Option.some.inj hj).symm, hadds⟩
        | succ j =>
          rw [← Nat.add_assoc, Nat.add_right_comm] at hadds
          exact Or.inr ⟨j, hj, hadds⟩
      · intro h
        cases h with
        | inl h => exact ⟨0, congrArg some h.1.symm, h.2⟩
        | inr h =>
          obtain ⟨j, hj, hadds⟩ := h
          rw [Nat.add_right_comm, Nat.add_assoc] at hadds
          exact ⟨j + 1, hj, hadds⟩
    rw [trustedFrom, ih, hsplit]
    by_cases hself : env.checkIssued cert cert = x509VOk
    · rw [if_pos hself, mem_storeAddCert]
      have hc : c = cert → SelfIssued env c := fun h => h ▸ hself
      tauto
    · rw [if_neg hself]
      have hc : SelfIssued env c → c ≠ cert := by
        intro hissued heq
        exact hself (heq ▸ hissued)
      tauto

/-- The store has the self-issued certificates that there was memory for. -/
theorem mem_trustedCacertsStore (stack : List Cert) (c : Cert) :
    c ∈ trustedCacertsStore env stack ↔ SelfIssued env c ∧ Stored env stack c := by
  unfold trustedCacertsStore Stored
  rw [mem_trustedFrom]
  simp

/-- The store is exact where there was memory for every self-issued certificate. -/
theorem store_exact_iff (stack : List Cert) :
    (∀ c, c ∈ trustedCacertsStore env stack ↔ c ∈ stack ∧ SelfIssued env c) ↔
      ∀ c ∈ stack, SelfIssued env c → Stored env stack c := by
  constructor
  · intro h c hmem hself
    exact ((mem_trustedCacertsStore stack c).mp ((h c).mpr ⟨hmem, hself⟩)).2
  · intro h c
    rw [mem_trustedCacertsStore]
    exact ⟨fun hc => ⟨hc.2.mem, hc.1⟩, fun hc => ⟨hc.2, h c hc.1 hc.2⟩⟩

theorem verifyCacertResp_stack (ctx : ClientCtx) {text : Bytes} {pkcs7 : Pkcs7 Cert}
    {stack : List Cert} (h : cacertStack env text = .ok (pkcs7, stack)) :
    (verifyCacertResp env (some ctx) (some text)).rc = .none ↔ NoneFails env pkcs7 stack := by
  have hcrls := @estClientRemoveCrls_none Cert env pkcs7 (cacertStack_type h) text
  have hverify := @verifyFrom_eq_false Cert env (trustedCacertsStore env stack) stack stack 0 false
  unfold verifyCacertResp
  dsimp only
  rw [h]
  dsimp only
  by_cases hstore : env.allocates .certStore = true
  · rw [if_neg (not_not.mpr hstore)]
    by_cases hctx : env.allocates .storeCtx = true
    · rw [if_neg (not_not.mpr hctx)]
      cases hfrom : verifyFrom env (trustedCacertsStore env stack) stack 0 stack false with
      | none =>
        refine iff_of_false (by simp) ?_
        intro hnone
        have hclean := hverify.mpr ⟨rfl, fun j hj => by simpa using hnone.inits j hj, hnone.nonzero⟩
        rw [hfrom] at hclean
        cases hclean
      | some failed =>
        cases failed with
        | true =>
          refine iff_of_false (by simp) ?_
          intro hnone
          have hclean :=
            hverify.mpr ⟨rfl, fun j hj => by simpa using hnone.inits j hj, hnone.nonzero⟩
          rw [hfrom] at hclean
          cases hclean
        | false =>
          obtain ⟨-, hinits, hnonzero⟩ := hverify.mp hfrom
          dsimp only
          rw [if_neg Bool.false_ne_true, hcrls]
          constructor
          · exact fun hgo => ⟨⟨hstore, hctx⟩, fun i hi => by simpa using hinits i hi, hnonzero, hgo⟩
          · exact fun hnone => hnone.crls
    · rw [if_pos hctx]
      exact iff_of_false (by simp) fun hnone => hctx hnone.allocates.2
  · rw [if_pos hstore]
    exact iff_of_false (by simp) fun hnone => hstore hnone.allocates.1

/-- A response is accepted just where nothing fails, in the order of the steps. -/
theorem verifyCacertResp_none_iff {ctx : Option ClientCtx} {cacerts : Option Bytes} :
    (verifyCacertResp env ctx cacerts).rc = .none ↔
      ctx ≠ none ∧ ∃ text pkcs7 stack, cacerts = some text ∧
        cacertStack env text = .ok (pkcs7, stack) ∧ NoneFails env pkcs7 stack := by
  cases ctx with
  | none => simp [verifyCacertResp]
  | some ctx =>
    cases cacerts with
    | none => simp [verifyCacertResp]
    | some text =>
      cases hstack : cacertStack env text with
      | error rv =>
        have hrc : (verifyCacertResp env (some ctx) (some text)).rc = rv := by
          unfold verifyCacertResp
          dsimp only
          rw [hstack]
        rw [hrc]
        refine iff_of_false (cacertStack_error hstack) ?_
        intro h
        obtain ⟨-, text', pkcs7, stack, htext, hok, -⟩ := h
        cases htext
        rw [hstack] at hok
        cases hok
      | ok found =>
        obtain ⟨pkcs7, stack⟩ := found
        rw [verifyCacertResp_stack ctx hstack]
        constructor
        · exact fun hnone => ⟨Option.some_ne_none ctx, text, pkcs7, stack, rfl, hstack, hnone⟩
        · intro h
          obtain ⟨-, text', pkcs7', stack', htext, hok, hnone⟩ := h
          cases htext
          rw [hstack] at hok
          cases hok
          exact hnone

/-- The check is right just where, once nothing has failed, every result is 1 and each
self-issued certificate has come into the store. -/
theorem cacert_response_verified_iff (env : CacertEnv Cert) (ctx : Option ClientCtx)
    (cacerts : Option Bytes) :
    VerifiesAll env ctx cacerts ↔
      ∀ text pkcs7 stack, ctx ≠ none → cacerts = some text →
        cacertStack env text = .ok (pkcs7, stack) → NoneFails env pkcs7 stack →
        (∀ cert ∈ stack, result env stack cert = 1) ∧
          ∀ cert ∈ stack, SelfIssued env cert → Stored env stack cert := by
  constructor
  · intro h text pkcs7 stack hctx htext hstack hnone
    obtain ⟨text', pkcs7', stack', htext', hstack', hone, hstore⟩ :=
      h.accepted (verifyCacertResp_none_iff.mpr ⟨hctx, text, pkcs7, stack, htext, hstack, hnone⟩)
    rw [htext] at htext'
    cases htext'
    rw [hstack] at hstack'
    cases hstack'
    exact ⟨hone, (store_exact_iff stack).mp hstore⟩
  · intro h
    constructor
    · intro hrc
      obtain ⟨hctx, text, pkcs7, stack, htext, hstack, hnone⟩ := verifyCacertResp_none_iff.mp hrc
      obtain ⟨hone, hstored⟩ := h text pkcs7 stack hctx htext hstack hnone
      exact ⟨text, pkcs7, stack, htext, hstack, hone, (store_exact_iff stack).mpr hstored⟩
    · intro text pkcs7 stack htext hstack hbad hrc
      obtain ⟨hctx, text', pkcs7', stack', htext', hstack', hnone⟩ :=
        verifyCacertResp_none_iff.mp hrc
      rw [htext] at htext'
      cases htext'
      rw [hstack] at hstack'
      cases hstack'
      cases hbad with
      | inl hinit =>
        obtain ⟨i, hi, hfails⟩ := hinit
        exact hfails (hnone.inits i hi)
      | inr hresult =>
        obtain ⟨cert, hmem, hne⟩ := hresult
        exact hne ((h text pkcs7 stack hctx htext hstack hnone).1 cert hmem)

end Verification

/-- One self-issued certificate comes back, and its verification ends in an error. -/
def errorEnv : CacertEnv Nat where
  allocates _ := true
  bioRead text := text
  d2iPkcs7 _ := some ⟨.signed, some [1], none⟩
  i2dPkcs7 _ := none
  checkIssued issuer subject := if issuer = subject then x509VOk else 29
  storeAdds _ := true
  storeCtxInit _ := true
  verifyCert _ _ _ _ := -1

/-- A verification ends in an error, and the response is accepted. -/
theorem cacert_error_accepted :
    (verifyCacertResp errorEnv (some hostCtx) (some [48])).rc = .none ∧
      ¬ VerifiesAll errorEnv (some hostCtx) (some [48]) := by
  have hrc : (verifyCacertResp errorEnv (some hostCtx) (some [48])).rc = .none := rfl
  refine ⟨hrc, ?_⟩
  intro h
  refine h.refused [48] ⟨.signed, some [1], none⟩ [1] rfl rfl (Or.inr ⟨1, by decide, ?_⟩) hrc
  decide

section Delivery

variable {Cert : Type} [DecidableEq Cert] (libs : CacertEnv Cert) (env : ClientEnv)

/-- The check as the callers see it: the buffer up to the length, or the error. -/
def checkedCacerts (ctx : ClientCtx) (cacerts : Bytes) : Except EstError Bytes :=
  let verdict := verifyCacertResp libs (some ctx) (some cacerts)
  if verdict.rc = .none then .ok (verdict.cacerts.take verdict.cacertsLen) else .error verdict.rc

/-- Certificates that the client keeps come from a response that was accepted. -/
theorem storeCacerts_accepted {ctx : ClientCtx} {certs : Option Bytes}
    (hcheck : env.verifyCacertResp = checkedCacerts libs ctx)
    (h : (storeCacerts env ctx certs).2.1 = .none) :
    ∃ pkcs7 stack, cacertStack libs (certs.getD []) = .ok (pkcs7, stack) ∧
      NoneFails libs pkcs7 stack := by
  unfold storeCacerts at h
  rw [hcheck] at h
  dsimp only at h
  by_cases hzero : (certs.getD []).length = 0
  · rw [if_pos hzero] at h
    cases h
  · rw [if_neg hzero] at h
    by_cases hmax : estCaMax < (certs.getD []).length + 1
    · rw [if_pos hmax] at h
      cases h
    · rw [if_neg hmax] at h
      unfold checkedCacerts at h
      dsimp only at h
      by_cases hrc : (verifyCacertResp libs (some ctx) (some (certs.getD []))).rc = .none
      · obtain ⟨-, text, pkcs7, stack, htext, hstack, hnone⟩ := verifyCacertResp_none_iff.mp hrc
        cases htext
        exact ⟨pkcs7, stack, hstack, hnone⟩
      · rw [if_neg hrc] at h
        exact absurd h hrc

end Delivery

end LibEst.Client.CacertResponse
