import LibEst.Server.CsrAttrsWalk

/-! Lists of attributes as the server gets them from its configuration or from
the callback, and what the library makes of such a list: the sanity test, the
challenge password that it adds, and the check of a request. -/
namespace LibEst.Server.CsrAttrs

open LibEst.Basic LibEst.OpenSsl LibEst.Base64 LibEst.Lib.ByteString LibEst.Lib.Der
open LibEst.Asn1 LibEst.Server.Context

def sequenceOf (content : Values) : Values := .cons (universal tagSequence) content .nil

/-- A sequence of identifiers and attributes. The tag numbers of object
identifiers, sequences and sets stand for these types. -/
structure AttrList where
  values : Values
  wellFormed : (sequenceOf values).WellFormed
  plain : values.Plain

namespace AttrList

def encode (list : AttrList) : Bytes := (sequenceOf list.values).encode

/-- All object identifiers of the list. -/
def oids (list : AttrList) : List Bytes := list.values.oids

/-- Those that stand outside of values of other types. -/
def listed (list : AttrList) : List Bytes := list.values.listed

def hasPop (list : AttrList) : Bool := decide (oidChallengePassword ∈ list.listed)

def limit (list : AttrList) : Nat := if list.hasPop then maxCsrattrsWithpop else maxCsrattrs

theorem encode_eq (list : AttrList) :
    list.encode = header (universal tagSequence) true list.values.encode.length ++
      list.values.encode := by
  simp [encode, sequenceOf, Values.encode]

theorem two_le_length (list : AttrList) : 2 ≤ list.encode.length := by
  have hheader := header_length_pos (universal tagSequence) true list.values.encode.length
  rw [encode_eq, List.length_append]
  omega

theorem encode_ne_nil (list : AttrList) : list.encode ≠ [] :=
  List.ne_nil_of_length_pos (Nat.lt_of_lt_of_le (by decide) list.two_le_length)

theorem eq_of_encode {a b : AttrList} (h : a.encode = b.encode) : a = b := by
  have hvalues := Values.encode_injective a.wellFormed b.wellFormed h
  cases a
  cases b
  simp_all [sequenceOf]

theorem mem_oids_of_mem_listed {list : AttrList} {oid : Bytes} (h : oid ∈ list.listed) :
    oid ∈ list.oids :=
  (Values.listed_sublist_oids list.values).subset h

theorem valid {list : AttrList} {oid : Bytes} (h : oid ∈ list.oids) : oidValid oid = true :=
  list.wellFormed.2.2.1.valid h

theorem length_le_encode (list : AttrList) : list.values.encode.length ≤ list.encode.length := by
  rw [encode_eq, List.length_append]
  exact Nat.le_add_left _ _

end AttrList

section Whole

theorem sequence_plain {v : Values} (h : v.Plain) : (sequenceOf v).Plain :=
  ⟨by decide, fun _ => h, trivial⟩

variable {C : Crypto} {A : Asn1Ops} (hA : A.Lawful)
include hA

/-- The enforcing loop over a whole list. -/
theorem enforceLoop_list (list : AttrList) (csrOids : List Bytes) :
    enforceLoop A list.encode csrOids (list.encode.length + 1) 0 =
      if ∀ oid ∈ list.listed, Satisfied A csrOids oid then .none else .csrAttrMissing := by
  have hrounds := listRounds_le (sequenceOf list.values)
  obtain ⟨fuel, hfuel⟩ := Nat.exists_eq_add_of_le
    (show listRounds (sequenceOf list.values) + 1 ≤ list.encode.length + 1 from
      Nat.succ_le_succ hrounds)
  have hwalk := enforceLoop_encode hA (sequenceOf list.values) list.wellFormed
    (sequence_plain list.plain) list.encode [] csrOids (fuel + 1) 0 (by
      rw [List.append_nil]
      rfl)
  have hlisted : (sequenceOf list.values).listed = list.listed := by
    simp [sequenceOf, Values.listed, AttrList.listed, universal]
  have hend : enforceLoop A list.encode csrOids (fuel + 1)
      (0 + (sequenceOf list.values).encode.length) = .none := by
    rw [enforceLoop, if_neg (by simp [AttrList.encode]), if_neg (by simp [AttrList.encode])]
  rw [hfuel, Nat.add_assoc, Nat.add_comm 1, hwalk, hlisted, hend]

/-- The sanity test of a whole list looks at its size only. -/
theorem estAsn1SanityTest_list (list : AttrList) :
    estAsn1SanityTest A list.encode =
      (if list.limit < list.encode.length then .badAsn1HexTooLong else .none, list.hasPop) := by
  have hrounds := listRounds_le (sequenceOf list.values)
  obtain ⟨fuel, hfuel⟩ := Nat.exists_eq_add_of_le
    (show listRounds (sequenceOf list.values) + 1 ≤ list.encode.length + 1 from
      Nat.succ_le_succ hrounds)
  have hwalk := sanityLoop_encode hA (sequenceOf list.values) list.wellFormed
    (sequence_plain list.plain) list.encode [] (fuel + 1) 0 false (by
      rw [List.append_nil]
      rfl)
  have hlisted : (sequenceOf list.values).listed = list.listed := by
    simp [sequenceOf, Values.listed, AttrList.listed, universal]
  have hlen := list.two_le_length
  rw [estAsn1SanityTest, if_neg (by rw [minAsn1Csrattrs]; omega), hfuel, Nat.add_assoc,
    Nat.add_comm 1, hwalk, hlisted, sanityLoop, if_neg (by simp [AttrList.encode]),
    if_neg (by simp [AttrList.encode])]
  show (if list.limit < list.encode.length then (EstError.badAsn1HexTooLong, list.hasPop)
    else (EstError.none, list.hasPop)) = _
  split <;> rfl

end Whole

section Pop

def challengePassword : Values := .prim (universal tagObject) oidChallengePassword .nil

theorem challengePassword_encode : challengePassword.encode = hexChpw := by decide

theorem challengePassword_wellFormed : challengePassword.WellFormed :=
  ⟨⟨by decide, by decide⟩, fun _ => ⟨by decide, by decide, by decide, fun _ => by decide⟩, trivial⟩

theorem challengePassword_plain : challengePassword.Plain :=
  ⟨fun _ => rfl, by decide, by decide, trivial⟩

/-- The header that the source writes is the one of the encoding. -/
theorem popHeader_eq {n : Nat} (hn : n < 65536) :
    popHeader n = header (universal tagSequence) true n := by
  have hleading : identifierOctets (universal tagSequence) true = [0x30] := by decide
  unfold popHeader header lengthOctets bigEndian
  rw [hleading]
  by_cases hshort : n < 128
  · rw [if_neg (by omega), if_neg (by omega), if_pos hshort]
    rfl
  · rw [if_neg hshort]
    by_cases hbyte : n < 256
    · rw [if_neg (by omega), if_pos (by omega), Nat.digits_of_lt 256 n (by omega) hbyte]
      rfl
    · have hlow : n / 256 < 256 := by omega
      rw [if_pos (by omega), Nat.digits_def' (by decide) (by omega),
        Nat.digits_of_lt 256 (n / 256) (by omega) hlow]
      rfl

/-- The list with the challenge password at its end. -/
def AttrList.withPop (list : AttrList) (h : list.encode.length ≤ maxCsrattrs) : AttrList where
  values := list.values.append challengePassword
  wellFormed := by
    have hlen := list.length_le_encode
    refine ⟨⟨by decide, ?_⟩, fun _ => ⟨by decide, by decide⟩,
      list.wellFormed.2.2.1.append challengePassword_wellFormed, trivial⟩
    rw [Values.encode_append, challengePassword_encode, List.length_append]
    unfold maxCsrattrs at h
    have hchpw : hexChpw.length = 11 := rfl
    omega
  plain := list.plain.append challengePassword_plain

theorem AttrList.withPop_oids (list : AttrList) (h : list.encode.length ≤ maxCsrattrs) :
    (list.withPop h).oids = list.oids ++ [oidChallengePassword] := by
  rw [AttrList.oids, AttrList.withPop, Values.oids_append]
  rfl

theorem AttrList.withPop_encode (list : AttrList) (h : list.encode.length ≤ maxCsrattrs) :
    (list.withPop h).encode =
      popHeader (list.values.encode ++ hexChpw).length ++ (list.values.encode ++ hexChpw) := by
  have hlen := list.length_le_encode
  have hchpw : hexChpw.length = 11 := rfl
  rw [AttrList.encode_eq, AttrList.withPop, Values.encode_append, challengePassword_encode,
    popHeader_eq]
  unfold maxCsrattrs at h
  rw [List.length_append]
  omega

theorem popHeader_length (n : Nat) :
    (popHeader n).length = if n ≥ 256 then 4 else if n ≥ 128 then 3 else 2 := by
  unfold popHeader
  split
  · rfl
  · split
    · rfl
    · rfl

theorem AttrList.withPop_length_le (list : AttrList) (h : list.encode.length ≤ maxCsrattrs) :
    (list.withPop h).encode.length ≤ 1037 := by
  have hheader := header_length_pos (universal tagSequence) true list.values.encode.length
  have hlen : list.encode.length = (header (universal tagSequence) true
      list.values.encode.length).length + list.values.encode.length := by
    rw [AttrList.encode_eq, List.length_append]
  have hbound : (popHeader (list.values.encode ++ hexChpw).length).length ≤ 4 := by
    rw [popHeader_length]
    split_ifs <;> omega
  have hchpw : hexChpw.length = 11 := rfl
  rw [AttrList.withPop_encode, List.length_append]
  rw [List.length_append] at hbound ⊢
  unfold maxCsrattrs at h
  omega

variable {C : Crypto} {A : Asn1Ops}

/-- The destination of twice the length has room for a text without line feeds. -/
theorem estBase64Encode_without_lines {der : Bytes} (hlen : 5 ≤ der.length) :
    estBase64Encode der (der.length * 2) false = some (base64Text false der) := by
  have hlength : (base64Text false der).length = (der.length + 2) / 3 * 4 := groups_length der
  unfold estBase64Encode
  dsimp only
  rw [if_neg (by omega), if_neg (List.ne_nil_of_length_pos (by omega)), if_pos (by omega)]

/-- The text that is made of a list that starts with a sequence. -/
theorem estAddChallengePassword_of_sequence {text der content : Bytes} {len : Int}
    (hdecode : estBase64Decode C.bioRead text (len.toNat * 2) = der) (hne : der ≠ [])
    (htag : (A.getObject der der.length).tag = tagSequence)
    (hcontent : der.drop (A.getObject der der.length).headerLen = content) :
    estAddChallengePassword C A text len =
      (.none, base64Text false (popHeader (content ++ hexChpw).length ++ (content ++ hexChpw))) := by
  have hlong : 11 ≤ (popHeader (content ++ hexChpw).length ++ (content ++ hexChpw)).length := by
    rw [List.length_append, List.length_append]
    have hchpw : hexChpw.length = 11 := rfl
    omega
  have hencode := estBase64Encode_without_lines
    (show 5 ≤ (popHeader (content ++ hexChpw).length ++ (content ++ hexChpw)).length by omega)
  have hlength : (base64Text false
      (popHeader (content ++ hexChpw).length ++ (content ++ hexChpw))).length = _ :=
    groups_length _
  unfold estAddChallengePassword
  simp only [hdecode, if_neg hne, hcontent]
  rw [if_neg (not_not.mpr htag), hencode]
  cases htext : base64Text false
      (popHeader (content ++ hexChpw).length ++ (content ++ hexChpw)) with
  | nil =>
    rw [htext, List.length_nil] at hlength
    omega
  | cons c rest => rfl

variable (hA : A.Lawful)
include hA

/-- What `est_add_challengePassword` makes of a list. -/
theorem estAddChallengePassword_list {text : Bytes} {len : Int} {list : AttrList}
    (hdecode : estBase64Decode C.bioRead text (len.toNat * 2) = list.encode)
    (h : list.encode.length ≤ maxCsrattrs) :
    estAddChallengePassword C A text len = (.none, base64Text false (list.withPop h).encode) := by
  have hobject := hA.getObject_header (universal tagSequence) true list.values.encode []
    list.encode.length list.wellFormed.1.1 list.wellFormed.1.2 (by
      rw [AttrList.encode_eq, List.length_append])
  rw [List.append_nil, ← AttrList.encode_eq] at hobject
  have hdrop : list.encode.drop (A.getObject list.encode list.encode.length).headerLen =
      list.values.encode := by
    rw [hobject, AttrList.encode_eq, List.drop_left]
  rw [AttrList.withPop_encode list h]
  exact estAddChallengePassword_of_sequence hdecode list.encode_ne_nil (by rw [hobject]; rfl) hdrop

end Pop

end LibEst.Server.CsrAttrs
