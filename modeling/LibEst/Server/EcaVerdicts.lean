import LibEst.Server.EnhancedCertAuth
import LibEst.Server.Reference

/-! What the two decisions of enhanced certificate authentication rest on: the values of
a subject field in the certificate and in the request, and the results of verifying the
certificate with the trust store of each manufacturer. -/
namespace LibEst.Server.EcaVerdicts

open LibEst.Basic LibEst.OpenSsl LibEst.Lib.ByteString LibEst.Server.AuthHeader
open LibEst.Server.Context LibEst.Server.EnhancedCertAuth LibEst.Server.Reference

section Fields

variable (peer : X509) (csr : X509Req) (nid : Nid)

/-- A field that the certificate and the request both have. -/
def SharedField (p : Bytes → Bytes → Prop) : Prop :=
  ∃ a b, nameField peer.subject nid = some a ∧ nameField csr.subject nid = some b ∧ p a b

/-- The field is in both with one value. -/
def Copied : Prop := SharedField peer csr nid (· = ·)

/-- Up to the first zero byte, and to 256 characters, the values are equal and not empty. -/
def LooksCopied : Prop :=
  SharedField peer csr nid fun a b =>
    cString a ≠ [] ∧ (cString a).take (maxUidpwd + 1) = (cString b).take (maxUidpwd + 1)

/-- Both values are empty up to the first zero byte. -/
def LooksEmpty : Prop := SharedField peer csr nid fun a b => cString a = [] ∧ cString b = []

/-- Where both have the field, equal values do not look empty, and values that are not
equal do not look equal. -/
def FieldPlain : Prop :=
  ∀ a b, nameField peer.subject nid = some a → nameField csr.subject nid = some b →
    if a = b then cString a ≠ []
    else cString a = [] ∨ (cString a).take (maxUidpwd + 1) ≠ (cString b).take (maxUidpwd + 1)

variable {peer csr nid}

theorem sharedField_iff {a b : Bytes} (ha : nameField peer.subject nid = some a)
    (hb : nameField csr.subject nid = some b) (p : Bytes → Bytes → Prop) :
    SharedField peer csr nid p ↔ p a b := by
  constructor
  · intro h
    obtain ⟨a', b', ha', hb', hp⟩ := h
    rw [ha] at ha'
    rw [hb] at hb'
    cases ha'
    cases hb'
    exact hp
  · exact fun hp => ⟨a, b, ha, hb, hp⟩

theorem not_sharedField (h : nameField peer.subject nid = none ∨ nameField csr.subject nid = none)
    (p : Bytes → Bytes → Prop) : ¬ SharedField peer csr nid p := by
  intro hshared
  obtain ⟨a, b, ha, hb, -⟩ := hshared
  cases h with
  | inl hnone =>
    rw [ha] at hnone
    cases hnone
  | inr hnone =>
    rw [hb] at hnone
    cases hnone

theorem take_eq_take_iff (a b : Bytes) (n : Nat) :
    a.take n = b.take n ↔
      min a.length n = min b.length n ∧ a.take (min a.length n) = b.take (min a.length n) := by
  rw [Nat.min_comm a.length, Nat.min_comm b.length]
  constructor
  · intro h
    have hlength := congrArg List.length h
    rw [List.length_take, List.length_take] at hlength
    refine ⟨hlength, ?_⟩
    rw [← List.take_eq_take_min, h, hlength, ← List.take_eq_take_min]
  · intro h
    obtain ⟨hlength, hsame⟩ := h
    rw [List.take_eq_take_min, hsame, hlength, ← List.take_eq_take_min]

/-- The outcomes of comparing a field, from the values that both have. -/
theorem compareField_some {a b : Bytes} (ha : nameField peer.subject nid = some a)
    (hb : nameField csr.subject nid = some b) :
    compareField peer csr nid =
      if min (cString a).length (maxUidpwd + 1) ≠ min (cString b).length (maxUidpwd + 1) then
        .lengthMismatch
      else if min (cString a).length (maxUidpwd + 1) = 0 then .safecError
      else .compared ((cString a).take (min (cString a).length (maxUidpwd + 1)) =
        (cString b).take (min (cString a).length (maxUidpwd + 1))) := by
  unfold compareField subjectField
  rw [ha, hb]
  rfl

theorem compareField_none
    (h : nameField peer.subject nid = none ∨ nameField csr.subject nid = none) :
    compareField peer csr nid = .missing := by
  unfold compareField subjectField
  cases h with
  | inl hnone => rw [hnone, Option.map_none]
  | inr hnone =>
    rw [hnone, Option.map_none]
    cases (nameField peer.subject nid).map cString with
    | none => rfl
    | some field => rfl

/-- A field that is compared to its end and found equal, and one that is empty. -/
theorem compareField_iff :
    (compareField peer csr nid = .compared true ↔ LooksCopied peer csr nid) ∧
      (compareField peer csr nid = .safecError ↔ LooksEmpty peer csr nid) := by
  cases hpeer : nameField peer.subject nid with
  | none =>
    rw [compareField_none (Or.inl hpeer)]
    constructor
    · exact iff_of_false (by decide) (not_sharedField (Or.inl hpeer) _)
    · exact iff_of_false (by decide) (not_sharedField (Or.inl hpeer) _)
  | some a =>
    cases hcsr : nameField csr.subject nid with
    | none =>
      rw [compareField_none (Or.inr hcsr)]
      constructor
      · exact iff_of_false (by decide) (not_sharedField (Or.inr hcsr) _)
      · exact iff_of_false (by decide) (not_sharedField (Or.inr hcsr) _)
    | some b =>
      have hzero (text : Bytes) : min text.length (maxUidpwd + 1) = 0 ↔ text = [] := by
        rw [← List.length_eq_zero_iff]
        unfold maxUidpwd
        omega
      have hnonempty (text : Bytes) : text ≠ [] ↔ min text.length (maxUidpwd + 1) ≠ 0 :=
        not_congr (hzero text).symm
      rw [compareField_some hpeer hcsr, LooksCopied, LooksEmpty, sharedField_iff hpeer hcsr,
        sharedField_iff hpeer hcsr, take_eq_take_iff (cString a) (cString b) (maxUidpwd + 1),
        hnonempty (cString a), ← hzero (cString a), ← hzero (cString b)]
      generalize min (cString a).length (maxUidpwd + 1) = m
      generalize min (cString b).length (maxUidpwd + 1) = n
      by_cases hlength : m = n
      · subst hlength
        rw [if_neg (not_not.mpr rfl)]
        by_cases hempty : m = 0
        · rw [if_pos hempty]
          simp [hempty]
        · rw [if_neg hempty]
          simp [hempty]
      · rw [if_pos hlength]
        constructor
        · simp [hlength]
        · apply iff_of_false
          · decide
          · intro h
            exact hlength (h.1.trans h.2.symm)

/-- One field decides rightly just where it is plain. -/
theorem looksCopied_iff_copied :
    (LooksCopied peer csr nid ↔ Copied peer csr nid) ↔ FieldPlain peer csr nid := by
  unfold FieldPlain
  cases hpeer : nameField peer.subject nid with
  | none =>
    apply iff_of_true
    · exact iff_of_false (not_sharedField (Or.inl hpeer) _) (not_sharedField (Or.inl hpeer) _)
    · intro a b ha
      cases ha
  | some a =>
    cases hcsr : nameField csr.subject nid with
    | none =>
      apply iff_of_true
      · exact iff_of_false (not_sharedField (Or.inr hcsr) _) (not_sharedField (Or.inr hcsr) _)
      · intro a b _ hb
        cases hb
    | some b =>
      rw [LooksCopied, Copied, sharedField_iff hpeer hcsr, sharedField_iff hpeer hcsr]
      have hsingle (p : Bytes → Bytes → Prop) :
          (∀ a' b', some a = some a' → some b = some b' → p a' b') ↔ p a b := by
        constructor
        · exact fun h => h a b rfl rfl
        · intro h a' b' ha hb
          rwa [← Option.some.inj ha, ← Option.some.inj hb]
      rw [hsingle fun a b => if a = b then cString a ≠ []
        else cString a = [] ∨ (cString a).take (maxUidpwd + 1) ≠ (cString b).take (maxUidpwd + 1)]
      by_cases hsame : a = b
      · subst hsame
        simp
      · simp only [hsame, iff_false, if_false, not_and_or, not_not, ne_eq]

end Fields

section CsrCheck

variable {peer : X509} {csr : X509Req}

/-- The subject fields of the manufacturers that are registered. -/
def usedNids (infos : List MfgInfo) : List Nid :=
  (infos.filter fun info => info.truststore.isSome && info.storeCtx).map MfgInfo.nid

/-- The loop over the slots looks at those in use only. -/
theorem localCsrCheck_cons (cmpInd : Bool) (info : MfgInfo) (rest : List MfgInfo) :
    localCsrCheck peer csr cmpInd (info :: rest) =
      if info.truststore.isSome && info.storeCtx then
        match compareField peer csr info.nid with
        | .missing | .lengthMismatch => localCsrCheck peer csr true rest
        | .safecError => if cmpInd then localCsrCheck peer csr cmpInd rest else false
        | .compared equal => if equal then false else localCsrCheck peer csr true rest
      else localCsrCheck peer csr cmpInd rest := by
  conv_lhs => unfold localCsrCheck
  cases info.truststore with
  | none => rfl
  | some store =>
    cases info.storeCtx with
    | false => rfl
    | true => rfl

theorem usedNids_cons (info : MfgInfo) (rest : List MfgInfo) :
    usedNids (info :: rest) =
      if info.truststore.isSome && info.storeCtx then info.nid :: usedNids rest
      else usedNids rest := by
  unfold usedNids
  rw [List.filter_cons]
  by_cases hused : (info.truststore.isSome && info.storeCtx) = true
  · rw [if_pos hused, if_pos hused, List.map_cons]
  · rw [if_neg hused, if_neg hused]

/-- Once a field was not found copied, only one that looks copied is taken for success. -/
theorem localCsrCheck_true (infos : List MfgInfo) :
    localCsrCheck peer csr true infos = false ↔ ∃ nid ∈ usedNids infos, LooksCopied peer csr nid := by
  induction infos with
  | nil => simp [localCsrCheck, usedNids]
  | cons info rest ih =>
    rw [localCsrCheck_cons, usedNids_cons]
    by_cases hused : (info.truststore.isSome && info.storeCtx) = true
    · rw [if_pos hused, if_pos hused, List.exists_mem_cons_iff, ← ih,
        ← (@compareField_iff peer csr info.nid).1]
      cases compareField peer csr info.nid with
      | missing => simp
      | lengthMismatch => simp
      | safecError => simp
      | compared equal => cases equal <;> simp
    · rw [if_neg hused, if_neg hused]
      exact ih

/-- Before that, so are no field at all and a first one that looks empty. -/
theorem localCsrCheck_false (infos : List MfgInfo) :
    localCsrCheck peer csr false infos = false ↔
      usedNids infos = [] ∨ (∃ nid, (usedNids infos).head? = some nid ∧ LooksEmpty peer csr nid) ∨
        ∃ nid ∈ usedNids infos, LooksCopied peer csr nid := by
  induction infos with
  | nil => simp [localCsrCheck, usedNids]
  | cons info rest ih =>
    rw [localCsrCheck_cons, usedNids_cons]
    by_cases hused : (info.truststore.isSome && info.storeCtx) = true
    · have hrest := @localCsrCheck_true peer csr rest
      rw [if_pos hused, if_pos hused, List.exists_mem_cons_iff, ← hrest, List.head?_cons,
        or_iff_right (List.cons_ne_nil _ _)]
      have hfield := @compareField_iff peer csr info.nid
      rw [← hfield.1]
      have hempty : (∃ nid, some info.nid = some nid ∧ LooksEmpty peer csr nid) ↔
          compareField peer csr info.nid = .safecError := by
        rw [hfield.2]
        constructor
        · intro h
          obtain ⟨nid, hnid, hlooks⟩ := h
          rwa [Option.some.inj hnid]
        · exact fun h => ⟨info.nid, rfl, h⟩
      rw [hempty]
      cases compareField peer csr info.nid with
      | missing => simp
      | lengthMismatch => simp
      | safecError => simp
      | compared equal => cases equal <;> simp
    · rw [if_neg hused, if_neg hused]
      exact ih

variable (peer csr)

/-- What the check is for: the field of the manufacturer was copied to the request, or,
for a certificate of the local domain, that of some registered manufacturer. -/
def Carried (ctx : EstCtx) (mfgIndex : Option (Fin numSupportedMfg)) : Prop :=
  ∃ infos, ctx.enchdCertMfgsInfoList = some infos ∧
    ((∃ i, mfgIndex = some i ∧ Copied peer csr (infos.get i).nid) ∨
      mfgIndex = none ∧ ∃ nid ∈ usedNids infos.toList, Copied peer csr nid)

/-- There is a registered manufacturer; some field is copied, and one looks like that or
the first one looks empty; or no field is copied, and none looks like that, nor does the
first one look empty. -/
def LocalPlain (nids : List Nid) : Prop :=
  nids ≠ [] ∧
    ((∃ nid ∈ nids, Copied peer csr nid) ∧
        ((∃ nid, nids.head? = some nid ∧ LooksEmpty peer csr nid) ∨
          ∃ nid ∈ nids, LooksCopied peer csr nid) ∨
      (∀ nid ∈ nids, ¬ Copied peer csr nid ∧ ¬ LooksCopied peer csr nid) ∧
        ∀ nid, nids.head? = some nid → ¬ LooksEmpty peer csr nid)

def CheckPlain (ctx : EstCtx) (mfgIndex : Option (Fin numSupportedMfg)) : Prop :=
  ∀ infos, ctx.enchdCertMfgsInfoList = some infos →
    (∀ i, mfgIndex = some i → FieldPlain peer csr (infos.get i).nid) ∧
      (mfgIndex = none → LocalPlain peer csr (usedNids infos.toList))

variable {peer csr}

section Registered

variable {ctx : EstCtx} {infos : Vector MfgInfo numSupportedMfg}
  (hinfos : ctx.enchdCertMfgsInfoList = some infos)
include hinfos

theorem carried_registered_iff (i : Fin numSupportedMfg) :
    Carried peer csr ctx (some i) ↔ Copied peer csr (infos.get i).nid := by
  simp [Carried, hinfos]

theorem carried_local_iff :
    Carried peer csr ctx none ↔ ∃ nid ∈ usedNids infos.toList, Copied peer csr nid := by
  simp [Carried, hinfos]

theorem checkPlain_registered_iff (i : Fin numSupportedMfg) :
    CheckPlain peer csr ctx (some i) ↔ FieldPlain peer csr (infos.get i).nid := by
  simp [CheckPlain, hinfos]

theorem checkPlain_local_iff :
    CheckPlain peer csr ctx none ↔ LocalPlain peer csr (usedNids infos.toList) := by
  simp [CheckPlain, hinfos]

end Registered

theorem localPlain_iff (nids : List Nid) :
    (nids = [] ∨ (∃ nid, nids.head? = some nid ∧ LooksEmpty peer csr nid) ∨
        (∃ nid ∈ nids, LooksCopied peer csr nid) ↔ ∃ nid ∈ nids, Copied peer csr nid) ↔
      LocalPlain peer csr nids := by
  unfold LocalPlain
  by_cases hnil : nids = []
  · subst hnil
    simp
  · rw [or_iff_right hnil, and_iff_right hnil]
    by_cases hcopied : ∃ nid ∈ nids, Copied peer csr nid
    · have hsome : ¬ ∀ nid ∈ nids, ¬ Copied peer csr nid ∧ ¬ LooksCopied peer csr nid := by
        intro h
        obtain ⟨nid, hmem, his⟩ := hcopied
        exact (h nid hmem).1 his
      rw [iff_true_right hcopied, and_iff_right hcopied]
      constructor
      · exact Or.inl
      · exact fun h => h.resolve_right fun hrest => hsome hrest.1
    · rw [iff_false_right hcopied, not_or]
      constructor
      · intro h
        refine Or.inr ⟨fun nid hmem => ⟨?_, ?_⟩, fun nid hhead hlooks => h.1 ⟨nid, hhead, hlooks⟩⟩
        · exact fun his => hcopied ⟨nid, hmem, his⟩
        · exact fun hlooks => h.2 ⟨nid, hmem, hlooks⟩
      · intro hplain
        have h := hplain.resolve_left fun hrest => hcopied hrest.1
        constructor
        · intro hhead
          obtain ⟨nid, hhead, hlooks⟩ := hhead
          exact h.2 nid hhead hlooks
        · intro hexists
          obtain ⟨nid, hmem, hlooks⟩ := hexists
          exact (h.1 nid hmem).2 hlooks

/-- The check is right about the values just where they are plain. -/
theorem csr_check_good_iff (ctx : EstCtx) (peer : X509) (csr : X509Req)
    (mfgIndex : Option (Fin numSupportedMfg)) :
    (performEnhancedCertAuthCsrCheck ctx peer csr (mfgIndex.map Fin.val) = .good ↔
        Carried peer csr ctx mfgIndex) ↔ CheckPlain peer csr ctx mfgIndex := by
  unfold performEnhancedCertAuthCsrCheck
  cases hinfos : ctx.enchdCertMfgsInfoList with
  | none => simp [Carried, CheckPlain, hinfos]
  | some infos =>
    cases mfgIndex with
    | some i =>
      have hslot : (Option.map Fin.val (some i)).bind (infos.toList[·]?) = some (infos.get i) := by
        simp
        rfl
      dsimp only
      rw [hslot, carried_registered_iff hinfos, checkPlain_registered_iff hinfos]
      dsimp only
      generalize infos.get i = info
      rw [← looksCopied_iff_copied, ← compareField_iff.1]
      cases compareField peer csr info.nid with
      | missing => simp
      | lengthMismatch => simp
      | safecError => simp
      | compared equal => cases equal <;> simp
    | none =>
      dsimp only [Option.map_none, Option.bind_none]
      rw [carried_local_iff hinfos, checkPlain_local_iff hinfos, ← localPlain_iff,
        ← localCsrCheck_false]
      cases localCsrCheck peer csr false infos.toList <;> simp

/-- No manufacturer is registered, and any request passes; a manufacturer is, and the two
serial numbers differ behind a zero byte. -/
theorem csr_check_good_empty :
    performEnhancedCertAuthCsrCheck { authCtx with
        enchdCertMfgsInfoList := some (Vector.replicate numSupportedMfg ⟨0, none, false⟩) }
      devCert { clientReq with subject := [] } none = .good ∧
    performEnhancedCertAuthCsrCheck { authCtx with
        enchdCertMfgsInfoList := some (Vector.replicate numSupportedMfg
          ⟨nidCommonName, some ⟨0⟩, true⟩) }
      { devCert with subject := [⟨nidCommonName, ascii "dev" ++ [0, 1]⟩] }
      { clientReq with subject := [⟨nidCommonName, ascii "dev" ++ [0, 2]⟩] } (some 0) = .good ∧
    ¬ Carried devCert { clientReq with subject := [] } { authCtx with
        enchdCertMfgsInfoList := some (Vector.replicate numSupportedMfg ⟨0, none, false⟩) } none := by
  refine ⟨by decide +kernel, by decide +kernel, ?_⟩
  have hempty : usedNids (Vector.replicate numSupportedMfg
      (⟨0, none, false⟩ : MfgInfo)).toList = [] := by
    decide +kernel
  intro hcarried
  obtain ⟨nid, hmem, -⟩ := (carried_local_iff rfl).mp hcarried
  rw [hempty] at hmem
  exact List.not_mem_nil hmem

end CsrCheck

section Manufacturers

/-- What becomes of a slot of the list when a certificate is to be verified. -/
inductive SlotOutcome where
  | unused
  | initFailed
  | result (r : Int)
  deriving DecidableEq

variable (C : Crypto) (peer : X509) (chain : List X509)

def slotOutcome (info : MfgInfo) : SlotOutcome :=
  match info.truststore, info.storeCtx with
  | some store, true =>
      if C.storeCtxInit store peer chain then .result (C.verifyCert store peer chain)
      else .initFailed
  | _, _ => .unused

def mfgOutcomes (ctx : EstCtx) : List SlotOutcome :=
  match ctx.enchdCertMfgsInfoList with
  | none => []
  | some infos => infos.toList.map (slotOutcome C peer chain)

/-- The least slot whose verification returned 1, reached with neither a success nor a
failure of OpenSSL before it. -/
def FirstVerified (outs : List SlotOutcome) (i : Nat) : Prop :=
  outs[i]? = some (.result 1) ∧
    ∀ j < i, outs[j]? ≠ some .initFailed ∧ outs[j]? ≠ some (.result 1)

/-- The first result other than 0. -/
def FirstNonzero (outs : List SlotOutcome) (i : Nat) (r : Int) : Prop :=
  outs[i]? = some (.result r) ∧ r ≠ 0 ∧
    ∀ j < i, outs[j]? = some .unused ∨ outs[j]? = some (.result 0)

/-- The field that names the peer: that of the manufacturer that verified it, or that of
the local domain. -/
def Identity (ctx : EstCtx) (nid : Nid) : Prop :=
  (∃ i infos info, FirstVerified (mfgOutcomes C peer chain ctx) i ∧
      ctx.enchdCertMfgsInfoList = some infos ∧ infos.toList[i]? = some info ∧ nid = info.nid) ∨
    (∀ i, ¬ FirstVerified (mfgOutcomes C peer chain ctx) i) ∧ nid = ctx.enhcdCertLocalPkiNid

/-- What the selection is for. -/
structure SelectsVerified (ctx : EstCtx) : Prop where
  index : ∀ i, (estEnhcdCertAuthGetMfg C peer chain ctx).2 = some i ↔
    FirstVerified (mfgOutcomes C peer chain ctx) i
  returned : ∀ i, (estEnhcdCertAuthGetMfg C peer chain ctx).2 = some i →
    (estEnhcdCertAuthGetMfg C peer chain ctx).1 = .none
  user : ∀ (ssl : Ssl) (csrBuf : Bytes) (ah : AuthHdr) (csrCheck : Bool),
    ssl.peerChain = some chain →
    (handleEnhancedCertAuth C ctx ssl peer csrBuf ah csrCheck).result = .good →
      ∃ nid field, Identity C peer chain ctx nid ∧ subjectField peer.subject nid = some field ∧
        (handleEnhancedCertAuth C ctx ssl peer csrBuf ah csrCheck).ah.user =
          some (strndup field (maxUidpwd + 1))

variable {C peer chain}

theorem getMfgFrom_cons (i : Nat) (rv : EstError) (info : MfgInfo) (rest : List MfgInfo) :
    getMfgFrom C peer chain i rv (info :: rest) =
      match slotOutcome C peer chain info with
      | .unused => getMfgFrom C peer chain (i + 1) rv rest
      | .initFailed => (.malloc, none)
      | .result r =>
          if r = 0 then getMfgFrom C peer chain (i + 1) .none rest else (.none, some i) := by
  conv_lhs => unfold getMfgFrom
  unfold slotOutcome
  cases info.truststore with
  | none => rfl
  | some store =>
    cases info.storeCtx with
    | false => rfl
    | true =>
      dsimp only
      cases C.storeCtxInit store peer chain with
      | false => rfl
      | true => rfl

theorem firstNonzero_cons (o : SlotOutcome) (outs : List SlotOutcome) (i : Nat) (r : Int) :
    FirstNonzero (o :: outs) (i + 1) r ↔
      (o = .unused ∨ o = .result 0) ∧ FirstNonzero outs i r := by
  unfold FirstNonzero
  rw [List.getElem?_cons_succ]
  constructor
  · intro h
    obtain ⟨hfound, hne, hbefore⟩ := h
    refine ⟨?_, hfound, hne, ?_⟩
    · have hzero := hbefore 0 (Nat.succ_pos i)
      rwa [List.getElem?_cons_zero, Option.some.injEq, Option.some.injEq] at hzero
    · intro j hj
      have hlater := hbefore (j + 1) (Nat.succ_lt_succ hj)
      rwa [List.getElem?_cons_succ] at hlater
  · intro h
    obtain ⟨hfirst, hfound, hne, hbefore⟩ := h
    refine ⟨hfound, hne, ?_⟩
    intro j hj
    cases j with
    | zero => rwa [List.getElem?_cons_zero, Option.some.injEq, Option.some.injEq]
    | succ j =>
      rw [List.getElem?_cons_succ]
      exact hbefore j (Nat.lt_of_succ_lt_succ hj)

/-- The loop stops at the first result other than 0. -/
theorem getMfgFrom_index_iff (i : Nat) (rv : EstError) (infos : List MfgInfo) (k : Nat) :
    (getMfgFrom C peer chain i rv infos).2 = some k ↔
      ∃ j r, k = i + j ∧ FirstNonzero (infos.map (slotOutcome C peer chain)) j r := by
  induction infos generalizing i rv with
  | nil => simp [getMfgFrom, FirstNonzero]
  | cons info rest ih =>
    rw [getMfgFrom_cons, List.map_cons]
    generalize slotOutcome C peer chain info = o
    -- behind a slot that is passed over the positions move by one
    have hpassed (rv : EstError) (ho : o = .unused ∨ o = .result 0) :
        (getMfgFrom C peer chain (i + 1) rv rest).2 = some k ↔
          ∃ j r, k = i + j ∧ FirstNonzero (o :: rest.map (slotOutcome C peer chain)) j r := by
      rw [ih]
      constructor
      · intro h
        obtain ⟨j, r, hk, hfirst⟩ := h
        exact ⟨j + 1, r, by omega, (firstNonzero_cons o _ j r).mpr ⟨ho, hfirst⟩⟩
      · intro h
        obtain ⟨j, r, hk, hfirst⟩ := h
        cases j with
        | zero =>
          exfalso
          obtain ⟨hfound, hne, -⟩ := hfirst
          rw [List.getElem?_cons_zero] at hfound
          cases ho with
          | inl hunused =>
            rw [hunused] at hfound
            cases hfound
          | inr hzero =>
            rw [hzero] at hfound
            cases hfound
            exact hne rfl
        | succ j => exact ⟨j, r, by omega, ((firstNonzero_cons o _ j r).mp hfirst).2⟩
    -- and nothing is found behind one that is not
    have hstops (ho : ¬ (o = .unused ∨ o = .result 0)) (j : Nat) (r : Int)
        (hfirst : FirstNonzero (o :: rest.map (slotOutcome C peer chain)) j r) :
        j = 0 ∧ o = .result r ∧ r ≠ 0 := by
      cases j with
      | zero => exact ⟨rfl, Option.some.inj hfirst.1, hfirst.2.1⟩
      | succ j => exact absurd ((firstNonzero_cons o _ j r).mp hfirst).1 ho
    cases o with
    | unused => exact hpassed rv (Or.inl rfl)
    | initFailed =>
      apply iff_of_false
      · intro h
        cases h
      · intro h
        obtain ⟨j, r, -, hfirst⟩ := h
        have hresult := (hstops (by decide) j r hfirst).2.1
        cases hresult
    | result r =>
      dsimp only
      by_cases hr : r = 0
      · rw [if_pos hr]
        exact hpassed .none (Or.inr (by rw [hr]))
      · rw [if_neg hr]
        constructor
        · intro h
          refine ⟨0, r, (Option.some.inj h).symm, rfl, hr, ?_⟩
          intro j hj
          exact absurd hj (Nat.not_lt_zero j)
        · intro h
          obtain ⟨j, r', hk, hfirst⟩ := h
          have hzero := (hstops (by simp [hr]) j r' hfirst).1
          rw [hk, hzero]
          rfl

theorem getMfgFrom_returned (i : Nat) (rv : EstError) (infos : List MfgInfo) {k : Nat}
    (h : (getMfgFrom C peer chain i rv infos).2 = some k) :
    (getMfgFrom C peer chain i rv infos).1 = .none := by
  induction infos generalizing i rv with
  | nil => cases h
  | cons info rest ih =>
    rw [getMfgFrom_cons] at h ⊢
    generalize slotOutcome C peer chain info = o at h ⊢
    cases o with
    | unused => exact ih _ _ h
    | initFailed => cases h
    | result r =>
      dsimp only at h ⊢
      by_cases hr : r = 0
      · rw [if_pos hr] at h ⊢
        exact ih _ _ h
      · rw [if_neg hr]

theorem getMfg_index_iff (ctx : EstCtx) (i : Nat) :
    (estEnhcdCertAuthGetMfg C peer chain ctx).2 = some i ↔
      ∃ r, FirstNonzero (mfgOutcomes C peer chain ctx) i r := by
  unfold estEnhcdCertAuthGetMfg mfgOutcomes
  cases ctx.enchdCertMfgsInfoList with
  | none => simp [FirstNonzero]
  | some infos =>
    dsimp only
    rw [getMfgFrom_index_iff]
    constructor
    · intro h
      obtain ⟨j, r, hi, hfirst⟩ := h
      rw [Nat.zero_add] at hi
      subst hi
      exact ⟨r, hfirst⟩
    · intro h
      obtain ⟨r, hfirst⟩ := h
      exact ⟨i, r, (Nat.zero_add i).symm, hfirst⟩

theorem getMfg_returned (ctx : EstCtx) {i : Nat}
    (h : (estEnhcdCertAuthGetMfg C peer chain ctx).2 = some i) :
    (estEnhcdCertAuthGetMfg C peer chain ctx).1 = .none := by
  unfold estEnhcdCertAuthGetMfg at h ⊢
  cases hinfos : ctx.enchdCertMfgsInfoList with
  | none => rfl
  | some infos =>
    rw [hinfos] at h
    exact getMfgFrom_returned _ _ _ h

/-- Where the first result other than 0 is 1, it is that of the least slot that verified. -/
theorem firstVerified_iff {outs : List SlotOutcome}
    (hclean : ∀ i r, FirstNonzero outs i r → r = 1) (i : Nat) :
    FirstVerified outs i ↔ ∃ r, FirstNonzero outs i r := by
  constructor
  · intro h
    obtain ⟨hfound, hbefore⟩ := h
    refine ⟨1, hfound, by decide, ?_⟩
    intro j
    induction j using Nat.strong_induction_on with
    | h j ih =>
      intro hj
      obtain ⟨hinit, hone⟩ := hbefore j hj
      have hlt : j < outs.length := by
        have hi := (List.getElem?_eq_some_iff.mp hfound).1
        omega
      cases ho : outs[j]? with
      | none => exact absurd (List.getElem?_eq_none_iff.mp ho) (Nat.not_le_of_lt hlt)
      | some o =>
        cases o with
        | unused => exact Or.inl rfl
        | initFailed => exact absurd ho hinit
        | result r =>
          by_cases hr : r = 0
          · rw [hr]
            exact Or.inr rfl
          · have hfirst : FirstNonzero outs j r := ⟨ho, hr, fun k hk => ih k hk (by omega)⟩
            rw [hclean j r hfirst] at ho
            exact absurd ho hone
  · intro h
    obtain ⟨r, hfirst⟩ := h
    obtain ⟨hfound, -, hbefore⟩ := id hfirst
    rw [hclean i r hfirst] at hfound
    refine ⟨hfound, ?_⟩
    intro j hj
    cases hbefore j hj with
    | inl hunused =>
      rw [hunused]
      exact ⟨by decide, by decide⟩
    | inr hzero =>
      rw [hzero]
      exact ⟨by decide, by decide⟩

/-- The index names the field that the user name is taken from. -/
theorem identity_of_index {ctx : EstCtx}
    (hindex : ∀ i, (estEnhcdCertAuthGetMfg C peer chain ctx).2 = some i ↔
      FirstVerified (mfgOutcomes C peer chain ctx) i) :
    Identity C peer chain ctx (identityNid ctx (estEnhcdCertAuthGetMfg C peer chain ctx).2) := by
  cases hmfg : (estEnhcdCertAuthGetMfg C peer chain ctx).2 with
  | none =>
    refine Or.inr ⟨?_, ?_⟩
    · intro i hfirst
      have hsome := (hindex i).mpr hfirst
      rw [hmfg] at hsome
      cases hsome
    · unfold identityNid
      cases ctx.enchdCertMfgsInfoList with
      | none => rfl
      | some infos => rfl
  | some i =>
    have hfirst := (hindex i).mp hmfg
    cases hinfos : ctx.enchdCertMfgsInfoList with
    | none =>
      have hfound := hfirst.1
      unfold mfgOutcomes at hfound
      rw [hinfos] at hfound
      cases hfound
    | some infos =>
      have hfound := hfirst.1
      unfold mfgOutcomes at hfound
      rw [hinfos] at hfound
      dsimp only at hfound
      rw [List.getElem?_map] at hfound
      obtain ⟨info, hinfo, -⟩ := Option.map_eq_some_iff.mp hfound
      refine Or.inl ⟨i, infos, info, hfirst, hinfos, hinfo, ?_⟩
      unfold identityNid
      rw [hinfos]
      dsimp only [Option.bind_some]
      rw [hinfo]

/-- The selection is right just where the first verification that does not return 0
returns 1. -/
theorem get_mfg_verified_iff (C : Crypto) (peer : X509) (chain : List X509) (ctx : EstCtx) :
    SelectsVerified C peer chain ctx ↔
      ∀ i r, FirstNonzero (mfgOutcomes C peer chain ctx) i r → r = 1 := by
  constructor
  · intro h i r hfirst
    have hverified := (h.index i).mp ((getMfg_index_iff ctx i).mpr ⟨r, hfirst⟩)
    have hsame := hverified.1.symm.trans hfirst.1
    cases hsame
    rfl
  · intro hclean
    have hindex : ∀ i, (estEnhcdCertAuthGetMfg C peer chain ctx).2 = some i ↔
        FirstVerified (mfgOutcomes C peer chain ctx) i := by
      intro i
      rw [firstVerified_iff hclean, getMfg_index_iff]
    constructor
    · exact hindex
    · exact fun i => getMfg_returned ctx
    · intro ssl csrBuf ah csrCheck hchain hgood
      obtain ⟨chain', field, hchain', hfield, -, huser, -, -⟩ :=
        (handleEnhancedCertAuth_good C hgood).chain
      rw [hchain] at hchain'
      cases hchain'
      exact ⟨_, field, identity_of_index hindex, hfield, huser⟩

/-- The verification runs into an error, and the certificate counts as one of the
manufacturer. -/
theorem get_mfg_error_matches :
    (estEnhcdCertAuthGetMfg { hostCrypto with verifyCert := fun _ _ _ => -1 } devCert [devCert]
        { authCtx with enchdCertMfgsInfoList := some (Vector.replicate numSupportedMfg
          ⟨nidCommonName, some ⟨0⟩, true⟩) }) = (.none, some 0) ∧
      ¬ SelectsVerified { hostCrypto with verifyCert := fun _ _ _ => -1 } devCert [devCert]
        { authCtx with enchdCertMfgsInfoList := some (Vector.replicate numSupportedMfg
          ⟨nidCommonName, some ⟨0⟩, true⟩) } := by
  have hmfg : (estEnhcdCertAuthGetMfg { hostCrypto with verifyCert := fun _ _ _ => -1 } devCert
      [devCert] { authCtx with enchdCertMfgsInfoList := some (Vector.replicate numSupportedMfg
        ⟨nidCommonName, some ⟨0⟩, true⟩) }) = (.none, some 0) := by
    decide +kernel
  refine ⟨hmfg, ?_⟩
  intro hselects
  have hfirst := ((hselects.index 0).mp (by rw [hmfg])).1
  exact absurd hfirst (by decide +kernel)

end Manufacturers

end LibEst.Server.EcaVerdicts
