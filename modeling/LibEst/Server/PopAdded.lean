import LibEst.Server.AttrVisits
import LibEst.Server.AttrList
import LibEst.Server.Reference

/-! What `est_add_challengePassword` makes of a list that the sanity test accepts: the
list under a header of its own, with the challenge password behind its last value. -/
namespace LibEst.Server.CsrAttrs

open LibEst.Basic LibEst.OpenSsl LibEst.Base64 LibEst.Lib.ByteString LibEst.Lib.Der
open LibEst.Asn1 LibEst.Server.Context LibEst.Server.Reference

variable {C : Crypto} {A : Asn1Ops}

section Walks

variable (hA : A.Lawful)

theorem meetsPop_append (objects others : List Bytes) :
    meetsPop A (objects ++ others) = (meetsPop A objects || meetsPop A others) :=
  List.any_append

include hA in
theorem meetsPop_challengePassword : meetsPop A [oidChallengePassword] = true := by
  have hnid := (hA.obj2nid_challengePassword oidChallengePassword (by decide)).mpr rfl
  simp [meetsPop, hnid]

include hA in
theorem walked_hexChpw : Walked A hexChpw [oidChallengePassword] := by
  have hobject : A.getObject hexChpw hexChpw.length =
      { error := false, constructed := false, indefinite := false, headerLen := 2, len := 9,
        tag := tagObject, xclass := 0 } :=
    hA.getObject_header (universal tagObject) false oidChallengePassword [] 11
      (by decide) (by decide) (by decide)
  have hd2i : A.d2iObject hexChpw hexChpw.length = some (oidChallengePassword, 11) :=
    hA.d2iObject_valid oidChallengePassword [] 11 (by decide) (by decide) (by decide)
  have hturn : turnAt A hexChpw = .object oidChallengePassword 11 := by
    unfold turnAt
    rw [hobject, hd2i]
    rfl
  exact .object (by decide) hturn (by decide) .done

include hA in
theorem turnAt_sequence {content : Bytes} (hlen : content.length < 2 ^ 31) :
    turnAt A (header (universal tagSequence) true content.length ++ content) =
      .pass (header (universal tagSequence) true content.length).length := by
  have hobject := hA.getObject_header (universal tagSequence) true content []
    (header (universal tagSequence) true content.length ++ content).length (by decide) hlen
    (by rw [List.length_append])
  rw [List.append_nil] at hobject
  unfold turnAt
  rw [hobject]
  rfl

include hA in
/-- A sequence is entered. -/
theorem walked_sequence_iff {content : Bytes} (hlen : content.length < 2 ^ 31)
    {objects : List Bytes} :
    Walked A (header (universal tagSequence) true content.length ++ content) objects ↔
      Walked A content objects := by
  have hturn := turnAt_sequence hA hlen
  have hpos := header_length_pos (universal tagSequence) true content.length
  have hne : header (universal tagSequence) true content.length ++ content ≠ [] := by
    apply List.ne_nil_of_length_pos
    rw [List.length_append]
    omega
  constructor
  · intro h
    generalize hmem : header (universal tagSequence) true content.length ++ content = mem at h
    rw [hmem] at hturn hne
    cases h with
    | done => exact absurd rfl hne
    | object _ hturn' => cases hturn.symm.trans hturn'
    | pass _ hturn' _ hrest =>
      cases hturn.symm.trans hturn'
      rwa [← hmem, List.drop_left] at hrest
  · intro h
    apply Walked.pass hne hturn
    · rw [List.length_append]
      omega
    · rw [List.drop_left]
      exact h

/-- The content of a list that starts with a sequence, whatever the form of its header. -/
theorem walked_content {der : Bytes} {objects : List Bytes}
    (htag : (A.getObject der der.length).tag = tagSequence) (hne : der ≠ [])
    (h : Walked A der objects) :
    Walked A (der.drop (A.getObject der der.length).headerLen) objects := by
  have hturn {turn : Turn} (hturn : turnAt A der = turn) (hok : turn ≠ .malformed) :
      turn = .pass (A.getObject der der.length).headerLen := by
    unfold turnAt at hturn
    dsimp only at hturn
    split at hturn
    · exact absurd hturn.symm hok
    · rw [if_neg (by rw [htag]; decide), if_pos (Or.inr htag)] at hturn
      exact hturn.symm
  cases h with
  | done => exact absurd rfl hne
  | object _ hobject => cases hturn hobject Turn.noConfusion
  | pass _ hpass _ hrest =>
    cases hturn hpass Turn.noConfusion
    exact hrest

variable (hlocal : A.Local)

include hlocal in
theorem estAsn1SanityTest_of_walked {der : Bytes} {objects : List Bytes}
    (h : Walked A der objects) (hlen : minAsn1Csrattrs ≤ der.length) :
    estAsn1SanityTest A der =
      (if der.length > csrattrsLimit (meetsPop A objects) then .badAsn1HexTooLong else .none,
        meetsPop A objects) := by
  unfold estAsn1SanityTest
  rw [if_neg (by omega), sanityLoop_of_walked hlocal h rfl (Nat.zero_le _) (by omega),
    Bool.false_or]

include hA hlocal in
/-- The list under its new header. -/
theorem walked_withPop {content : Bytes} {objects : List Bytes} (h : Walked A content objects)
    (hlen : content.length + 11 < 65536) :
    Walked A (popHeader (content ++ hexChpw).length ++ (content ++ hexChpw))
      (objects ++ [oidChallengePassword]) := by
  have hlength : (content ++ hexChpw).length = content.length + 11 := List.length_append
  rw [popHeader_eq (by omega)]
  apply (walked_sequence_iff hA (by omega)).mpr
  exact h.append hlocal (walked_hexChpw hA)

end Walks

section Added

/-- The text of an encoding is read back, and is long enough for a list. -/
theorem estAsn1ParseAttributes_encoded (hread : ReadsBack C.bioRead) {der : Bytes} (hne : der ≠ []) :
    estBase64Decode C.bioRead (base64Text false der) ((base64Text false der).length * 2) = der ∧
      estAsn1ParseAttributes C A (base64Text false der) (base64Text false der).length =
        estAsn1SanityTest A der := by
  have hdecode := estBase64Decode_base64Text hread hne
  rw [Nat.mul_comm] at hdecode
  have hlength : (base64Text false der).length = (der.length + 2) / 3 * 4 := groups_length der
  have hpos : 0 < der.length := List.length_pos_iff.mpr hne
  constructor
  · exact hdecode
  · unfold estAsn1ParseAttributes
    rw [if_neg (by unfold minCsrattrs; omega), Int.toNat_natCast, hdecode]
    exact if_neg hne

/-- The new header takes no more room than the longest list leaves for the identifier. -/
theorem withPop_length_le {n : Nat} (h : (popHeader n).length + n ≤ maxCsrattrs) :
    (popHeader (n + 11)).length + (n + 11) ≤ maxCsrattrsWithpop := by
  rw [popHeader_length] at h ⊢
  unfold maxCsrattrs at h
  unfold maxCsrattrsWithpop
  split at h
  · rw [if_pos (by omega)]
    omega
  · split at h
    · split
      · omega
      · split <;> omega
    · split
      · omega
      · split <;> omega

variable (hA : A.Lawful) (hlocal : A.Local)

include hA hlocal in
/-- A list without the challenge password that is one sequence is accepted with it: it
stands behind the content, under the header of the longer sequence. -/
theorem challengePassword_added (hread : ReadsBack C.bioRead) {text content : Bytes} {len : Int}
    (hparse : estAsn1ParseAttributes C A text len = (.none, false))
    (hdecode : estBase64Decode C.bioRead text (len.toNat * 2) =
      header (universal tagSequence) true content.length ++ content) :
    ∃ textPop, estAddChallengePassword C A text len = (.none, textPop) ∧
      estAsn1ParseAttributes C A textPop textPop.length = (.none, true) ∧
      estBase64Decode C.bioRead textPop (textPop.length * 2) =
        header (universal tagSequence) true (content ++ hexChpw).length ++
          (content ++ hexChpw) := by
  have hne : header (universal tagSequence) true content.length ++ content ≠ [] := by
    apply List.ne_nil_of_length_pos
    have hpos := header_length_pos (universal tagSequence) true content.length
    rw [List.length_append]
    omega
  have hsane : estAsn1SanityTest A (header (universal tagSequence) true content.length ++ content) =
      (.none, false) := by
    unfold estAsn1ParseAttributes at hparse
    rw [hdecode] at hparse
    split at hparse
    · cases hparse
    · simpa only [if_neg hne] using hparse
  obtain ⟨-, objects, hwalked, hfound, hlimit⟩ := (estAsn1SanityTest_none_iff hlocal).mp hsane
  have hlimit : (header (universal tagSequence) true content.length).length + content.length ≤
      maxCsrattrs := by
    rw [← List.length_append]
    exact hlimit
  have hsmall : content.length ≤ 1024 := by
    unfold maxCsrattrs at hlimit
    omega
  have hobject := hA.getObject_header (universal tagSequence) true content []
    (header (universal tagSequence) true content.length ++ content).length (by decide) (by omega)
    (by rw [List.length_append])
  rw [List.append_nil] at hobject
  have hcontent : (header (universal tagSequence) true content.length ++ content).drop
      (A.getObject (header (universal tagSequence) true content.length ++ content)
        (header (universal tagSequence) true content.length ++ content).length).headerLen =
      content := by
    rw [hobject, List.drop_left]
  have hadd := estAddChallengePassword_of_sequence hdecode hne (by rw [hobject]; rfl) hcontent
  have hlength : (content ++ hexChpw).length = content.length + 11 := List.length_append
  have hpop := walked_withPop hA hlocal
    ((walked_sequence_iff hA (by omega)).mp hwalked) (by omega)
  have hmeets : meetsPop A (objects ++ [oidChallengePassword]) = true := by
    rw [meetsPop_append, meetsPop_challengePassword hA, Bool.or_true]
  have hfits := withPop_length_le (n := content.length) (by rwa [popHeader_eq (by omega)])
  rw [← hlength, ← List.length_append] at hfits
  have hlong : minAsn1Csrattrs ≤
      (popHeader (content ++ hexChpw).length ++ (content ++ hexChpw)).length := by
    rw [List.length_append]
    unfold minAsn1Csrattrs
    omega
  have hheader := popHeader_eq (show (content ++ hexChpw).length < 65536 by omega)
  obtain ⟨hdecoded, haccepted⟩ := estAsn1ParseAttributes_encoded (A := A) hread
    (List.ne_nil_of_length_pos (Nat.lt_of_lt_of_le (by decide) hlong))
  refine ⟨_, hadd, ?_, ?_⟩
  · rw [haccepted, estAsn1SanityTest_of_walked hlocal hpop hlong, hmeets]
    rw [if_neg (by
      unfold csrattrsLimit
      rw [if_pos rfl]
      omega)]
  · rw [← hheader]
    exact hdecoded

/-- The list with the e-mail address only. -/
theorem challengePassword_added_email : ∃ textPop,
    estAddChallengePassword hostCrypto hostAsn1 (ascii "MAsGCSqGSIb3DQEJAQ==") 20 =
        (.none, textPop) ∧
      estAsn1ParseAttributes hostCrypto hostAsn1 textPop textPop.length = (.none, true) ∧
      estBase64Decode hostCrypto.bioRead textPop (textPop.length * 2) =
        header (universal tagSequence) true
            (hex "06092a864886f70d010901" ++ hexChpw).length ++
          (hex "06092a864886f70d010901" ++ hexChpw) :=
  challengePassword_added hostAsn1_lawful hostAsn1_local readBase64_readsBack (by decide +kernel)
    (by decide +kernel)

end Added

end LibEst.Server.CsrAttrs
