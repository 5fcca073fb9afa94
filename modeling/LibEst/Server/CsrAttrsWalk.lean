import LibEst.Server.CsrAttrs

/-! What the three walks over ASN.1 do on a distinguished encoding: the one over
a request collects the texts of all its object identifiers, the two over a list
meet those that the list has outside of values of other types. -/
namespace LibEst.Server.CsrAttrs

open LibEst.Basic LibEst.OpenSsl LibEst.Base64 LibEst.Lib.ByteString LibEst.Lib.Der
open LibEst.Asn1 LibEst.Server.Context

variable {A : Asn1Ops} (hA : A.Lawful)

section Request

/-- The rounds that the walk over a request takes, those of its inner loops
included. -/
def requestRounds : Values → Nat
  | .nil => 1
  | .prim _ _ rest => 1 + requestRounds rest
  | .cons _ children rest => 3 + requestRounds children + requestRounds rest

theorem requestRounds_le (v : Values) : requestRounds v ≤ 2 * v.encode.length + 1 := by
  induction v with
  | nil => simp [requestRounds]
  | prim id content rest ih =>
    have hheader := header_length_pos id false content.length
    simp only [requestRounds, Values.encode, List.length_append]
    omega
  | cons id children rest ihc ihr =>
    have hheader := header_length_pos id true children.encode.length
    simp only [requestRounds, Values.encode, List.length_append]
    omega

theorem encode_eq_nil {v : Values} (h : v.encode = []) : v = .nil := by
  cases v with
  | nil => rfl
  | prim id content rest => exact absurd h (Values.encode_ne_nil_of_prim id content rest)
  | cons id children rest => exact absurd h (Values.encode_ne_nil_of_cons id children rest)

/-- The inner loop makes one call, which takes all of the inside. -/
theorem csrAsn1Children_of_loop {der : Bytes} {fuel ptr len : Nat} {list more : List Bytes}
    (hloop : len ≠ 0 → csrAsn1Loop A der fuel (ptr + len) (ptr - 1) ptr len list =
      { rc := 1, ptr := ptr + len, list := list ++ more })
    (hempty : len = 0 → more = []) (hfuel : 0 < fuel) :
    csrAsn1Children A der (fuel + 1) (ptr + len) len ptr list =
      { rc := 1, ptr := ptr + len, list := list ++ more } := by
  by_cases hlen : len = 0
  · subst hlen
    simp [csrAsn1Children, hempty rfl]
  · obtain ⟨fuel, rfl⟩ := Nat.exists_eq_add_one_of_ne_zero (Nat.pos_iff_ne_zero.mp hfuel)
    rw [csrAsn1Children, if_pos (by omega), hloop hlen]
    simp [csrAsn1Children]

theorem drop_past {der a b : Bytes} {ptr n : Nat} (h : der.drop ptr = a ++ b) (hn : n = a.length) :
    der.drop (ptr + n) = b := by
  rw [hn, ← List.drop_drop, h, List.drop_left]

include hA

/-- OpenSSL's reading of a header that has its content behind it. -/
theorem getObject_at {id : Identifier} {constructed : Bool} {content rest mem : Bytes} {max : Int}
    (hmem : mem = header id constructed content.length ++ content ++ rest)
    (hsize : id.tag < 2 ^ 31 ∧ content.length < 2 ^ 31)
    (hmax : (header id constructed content.length).length + content.length ≤ max) :
    A.getObject mem max =
      { error := false, constructed := constructed, indefinite := false,
        headerLen := (header id constructed content.length).length, len := content.length,
        tag := id.tag, xclass := id.cls.val * 64 } := by
  rw [hmem]
  exact hA.getObject_header id constructed content rest max hsize.1 hsize.2 (by omega)

theorem d2iObject_at {content rest mem : Bytes} {max : Int}
    (hmem : mem = header (universal tagObject) false content.length ++ content ++ rest)
    (hvalid : oidValid content = true) (hlen : content.length < 2 ^ 31)
    (hmax : (header (universal tagObject) false content.length).length + content.length ≤ max) :
    A.d2iObject mem max =
      some (content, (header (universal tagObject) false content.length).length +
        content.length) := by
  rw [hmem]
  exact hA.d2iObject_valid content rest max hvalid hlen (by omega)

/-- The walk over a run of values that ends where the caller says. -/
theorem csrAsn1Loop_encode (v : Values) (hv : v.WellFormed) (der post : Bytes) (fuel : Nat)
    (hfuel : requestRounds v ≤ fuel) (tot op : Int) (ptr : Nat) (length : Int) (list : List Bytes)
    (hder : der.drop ptr = v.encode ++ post) (hop : op < ptr)
    (htot : tot = ptr + v.encode.length) (hlength : length = v.encode.length) :
    csrAsn1Loop A der fuel tot op ptr length list =
      { rc := 1, ptr := ptr + v.encode.length, list := list ++ v.oids.map A.oidText } := by
  induction v generalizing der post fuel tot op ptr length list with
  | nil =>
    obtain ⟨fuel, rfl⟩ := Nat.exists_eq_add_of_le hfuel
    rw [requestRounds, Nat.add_comm, csrAsn1Loop, if_neg]
    · simp [Values.encode, Values.oids]
    · simp only [Values.encode, List.length_nil] at htot
      omega
  | prim id content rest ih =>
    obtain ⟨hsize, huniversal, hrest⟩ := hv
    obtain ⟨fuel, rfl⟩ := Nat.exists_eq_add_of_le hfuel
    have hheader := header_length_pos id false content.length
    have hlen : (Values.prim id content rest).encode.length =
        (header id false content.length).length + content.length + rest.encode.length := by
      simp only [Values.encode, List.length_append]
    rw [hlen] at htot hlength ⊢
    rw [Values.encode, List.append_assoc] at hder
    have hobject := getObject_at hA hder hsize (show _ ≤ length by omega)
    have hnext : der.drop (ptr + (header id false content.length).length + content.length) =
        rest.encode ++ post := by
      rw [Nat.add_assoc]
      exact drop_past hder (by rw [List.length_append])
    have hstep := fun list => ih hrest der post (requestRounds rest + fuel) (by omega) tot ptr
      (ptr + (header id false content.length).length + content.length)
      (length - (header id false content.length).length - content.length) list hnext (by omega)
      (by omega) (by omega)
    rw [requestRounds, Nat.add_assoc, Nat.add_comm 1, csrAsn1Loop, if_pos (by omega)]
    simp only [hobject, Bool.false_eq_true, if_false]
    by_cases hclass : id.cls = 0
    · obtain ⟨hmark, -, -, hvalid⟩ := huniversal hclass
      rw [if_neg (by simp [hclass])]
      by_cases hobjectTag : id.tag = tagObject
      · have hid : id = universal tagObject := by
          cases id
          simp_all [universal]
        subst hid
        have hd2i : A.d2iObject (der.drop ptr)
            (content.length + (header (universal tagObject) false content.length).length) =
            some (content, _) := d2iObject_at hA hder (hvalid rfl) hsize.2 (by omega)
        simp only [if_pos hobjectTag, hd2i, hstep]
        simp [Values.oids, Nat.add_assoc]
      · have hother : id ≠ universal tagObject := fun h => hobjectTag (by rw [h]; rfl)
        rw [if_neg hobjectTag, if_neg hmark, hstep]
        simp [Values.oids, hother, Nat.add_assoc]
    · have hother : id ≠ universal tagObject := fun h => hclass (by rw [h]; rfl)
      have hval : id.cls.val ≠ 0 := fun h => hclass (Fin.ext h)
      rw [if_pos (by omega), hstep]
      simp [Values.oids, hother, Nat.add_assoc]
  | cons id children rest ihc ihr =>
    obtain ⟨hsize, -, hchildren, hrest⟩ := hv
    obtain ⟨fuel, rfl⟩ := Nat.exists_eq_add_of_le hfuel
    have hheader := header_length_pos id true children.encode.length
    have hlen : (Values.cons id children rest).encode.length =
        (header id true children.encode.length).length + children.encode.length +
          rest.encode.length := by
      simp only [Values.encode, List.length_append]
    rw [hlen] at htot hlength ⊢
    rw [Values.encode, List.append_assoc] at hder
    have hobject := getObject_at hA hder hsize (show _ ≤ length by omega)
    have hinside : der.drop (ptr + (header id true children.encode.length).length) =
        children.encode ++ (rest.encode ++ post) := by
      rw [List.append_assoc] at hder
      exact drop_past hder rfl
    have hnext : der.drop (ptr + (header id true children.encode.length).length +
        children.encode.length) = rest.encode ++ post := drop_past hinside rfl
    have hentered : csrAsn1Children A der
        (1 + requestRounds children + requestRounds rest + fuel + 1)
        (ptr + (header id true children.encode.length).length + children.encode.length)
        children.encode.length (ptr + (header id true children.encode.length).length) list =
        { rc := 1
          ptr := ptr + (header id true children.encode.length).length + children.encode.length
          list := list ++ children.oids.map A.oidText } := by
      apply csrAsn1Children_of_loop
      · intro _
        exact ihc hchildren der (rest.encode ++ post) _ (by omega) _ _ _ _ list hinside (by omega)
          rfl rfl
      · intro hempty
        rw [encode_eq_nil (List.length_eq_zero_iff.mp hempty)]
        rfl
      · omega
    rw [requestRounds, show 3 + requestRounds children + requestRounds rest + fuel =
      1 + requestRounds children + requestRounds rest + fuel + 1 + 1 by omega, csrAsn1Loop,
      if_pos (by omega)]
    simp only [hobject, Bool.false_eq_true, if_false, if_true, false_and]
    rw [if_neg (by omega), hentered]
    simp only [one_ne_zero, if_false]
    rw [ihr hrest der post _ (by omega) tot ptr _ _ _ hnext (by omega) (by omega) (by omega)]
    simp [Values.oids, Nat.add_assoc]

end Request

section List

/-- The rounds that a walk over a list takes. -/
def listRounds : Values → Nat
  | .nil => 0
  | .prim _ _ rest => 1 + listRounds rest
  | .cons id children rest =>
      1 + (if id.tag = tagSequence ∨ id.tag = tagSet then listRounds children else 0) +
        listRounds rest

theorem listRounds_le (v : Values) : listRounds v ≤ v.encode.length := by
  induction v with
  | nil => exact Nat.le_refl 0
  | prim id content rest ih =>
    have hheader := header_length_pos id false content.length
    simp only [listRounds, Values.encode, List.length_append]
    omega
  | cons id children rest ihc ihr =>
    have hheader := header_length_pos id true children.encode.length
    simp only [listRounds, Values.encode, List.length_append]
    split <;> omega

theorem remaining {der a b : Bytes} {ptr : Nat} (h : der.drop ptr = a ++ b) (ha : 0 < a.length) :
    (der.length : Int) - ptr = a.length + b.length := by
  have hlen := congrArg List.length h
  rw [List.length_drop, List.length_append] at hlen
  omega

include hA

/-- A round of a walk over a list at a primitive value: there is something to
read, it is the header of the value, and the rest stands behind the content. -/
theorem listHeader_prim {id : Identifier} {content : Bytes} {rest : Values} {der post : Bytes}
    {ptr : Nat} (hsize : id.tag < 2 ^ 31 ∧ content.length < 2 ^ 31)
    (hder : der.drop ptr = (Values.prim id content rest).encode ++ post) :
    0 < (der.length : Int) - ptr ∧
    A.getObject (der.drop ptr) (der.length - ptr) =
      { error := false, constructed := false, indefinite := false,
        headerLen := (header id false content.length).length, len := content.length,
        tag := id.tag, xclass := id.cls.val * 64 } ∧
    der.drop (ptr + ((header id false content.length).length + content.length)) =
      rest.encode ++ post := by
  have hheader := header_length_pos id false content.length
  rw [Values.encode, List.append_assoc] at hder
  have hremaining := remaining hder (by rw [List.length_append]; omega)
  rw [List.length_append, List.length_append] at hremaining
  push_cast at hremaining
  refine ⟨by omega, ?_, ?_⟩
  · exact getObject_at hA hder hsize (by omega)
  · exact drop_past hder (by rw [List.length_append])

theorem listObject {content : Bytes} {rest : Values} {der post : Bytes} {ptr : Nat}
    (hvalid : oidValid content = true) (hlen : content.length < 2 ^ 31)
    (hder : der.drop ptr = (Values.prim (universal tagObject) content rest).encode ++ post) :
    A.d2iObject (der.drop ptr) (der.length - ptr) =
      some (content, (header (universal tagObject) false content.length).length +
        content.length) := by
  have hheader := header_length_pos (universal tagObject) false content.length
  rw [Values.encode, List.append_assoc] at hder
  have hremaining := remaining hder (by rw [List.length_append]; omega)
  rw [List.length_append, List.length_append] at hremaining
  push_cast at hremaining
  exact d2iObject_at hA hder hvalid hlen (by omega)

theorem listHeader_cons {id : Identifier} {children rest : Values} {der post : Bytes} {ptr : Nat}
    (hsize : id.tag < 2 ^ 31 ∧ children.encode.length < 2 ^ 31)
    (hder : der.drop ptr = (Values.cons id children rest).encode ++ post) :
    0 < (der.length : Int) - ptr ∧
    A.getObject (der.drop ptr) (der.length - ptr) =
      { error := false, constructed := true, indefinite := false,
        headerLen := (header id true children.encode.length).length
        len := children.encode.length, tag := id.tag, xclass := id.cls.val * 64 } ∧
    der.drop (ptr + (header id true children.encode.length).length) =
      children.encode ++ (rest.encode ++ post) := by
  have hheader := header_length_pos id true children.encode.length
  rw [Values.encode, List.append_assoc] at hder
  have hremaining := remaining hder (by rw [List.length_append]; omega)
  rw [List.length_append, List.length_append] at hremaining
  push_cast at hremaining
  refine ⟨by omega, ?_, ?_⟩
  · exact getObject_at hA hder hsize (by omega)
  · rw [List.append_assoc] at hder
    exact drop_past hder rfl

/-- The identifier is the challenge password, or the request has its text. -/
def Satisfied (A : Asn1Ops) (csrOids : List Bytes) (oid : Bytes) : Prop :=
  oid = oidChallengePassword ∨ A.oidText oid ∈ csrOids

instance (csrOids : List Bytes) (oid : Bytes) : Decidable (Satisfied A csrOids oid) :=
  inferInstanceAs (Decidable (_ ∨ _))

/-- The enforcing walk passes over a run if the request has all that it lists. -/
theorem enforceLoop_encode (v : Values) (hv : v.WellFormed) (hplain : v.Plain) (der post : Bytes)
    (csrOids : List Bytes) (fuel ptr : Nat) (hder : der.drop ptr = v.encode ++ post) :
    enforceLoop A der csrOids (listRounds v + fuel) ptr =
      if ∀ oid ∈ v.listed, Satisfied A csrOids oid then
        enforceLoop A der csrOids fuel (ptr + v.encode.length)
      else .csrAttrMissing := by
  induction v generalizing fuel ptr post with
  | nil => simp [listRounds, Values.encode, Values.listed]
  | prim id content rest ih =>
    obtain ⟨hsize, huniversal, hrest⟩ := hv
    obtain ⟨hobjectClass, hsequence, hset, hplain⟩ := hplain
    obtain ⟨hpos, hheader, hnext⟩ := listHeader_prim hA hsize hder
    have hstep := ih hrest hplain post fuel _ hnext
    have hend : ptr + (Values.prim id content rest).encode.length =
        ptr + ((header id false content.length).length + content.length) + rest.encode.length := by
      simp only [Values.encode, List.length_append]
      omega
    rw [listRounds, Nat.add_assoc, Nat.add_comm 1, enforceLoop, hend]
    simp only [if_pos hpos, hheader, Bool.false_eq_true, if_false]
    by_cases hobject : id.tag = tagObject
    · have hid : id = universal tagObject := by
        cases id
        simp_all [universal]
      subst hid
      have hvalid : oidValid content = true := (huniversal rfl).2.2.2 rfl
      have hsatisfied : (A.obj2nid content = nidChallengePassword ∨ A.oidText content ∈ csrOids) ↔
          Satisfied A csrOids content := by
        rw [Satisfied, hA.obj2nid_challengePassword content hvalid]
      simp only [if_pos hobject, listObject hA hvalid hsize.2 hder, hsatisfied, hstep]
      by_cases hcontent : Satisfied A csrOids content
      · simp [Values.listed, hcontent]
      · simp [Values.listed, hcontent]
    · have hother : id ≠ universal tagObject := fun h => hobject (by rw [h]; rfl)
      rw [if_neg hobject, if_neg (by simp [hsequence, hset]), Nat.add_assoc, hstep]
      simp [Values.listed, hother]
  | cons id children rest ihc ihr =>
    obtain ⟨hsize, -, hchildren, hrest⟩ := hv
    obtain ⟨hobject, hinner, hplain⟩ := hplain
    obtain ⟨hpos, hheader, hinside⟩ := listHeader_cons hA hsize hder
    have hnext := drop_past hinside rfl
    have hstep := ihr hrest hplain post fuel _ hnext
    have hend : ptr + (Values.cons id children rest).encode.length =
        ptr + (header id true children.encode.length).length + children.encode.length +
          rest.encode.length := by
      simp only [Values.encode, List.length_append]
      omega
    by_cases hentered : id.tag = tagSequence ∨ id.tag = tagSet
    · have hchild := ihc hchildren (hinner hentered) (rest.encode ++ post)
        (listRounds rest + fuel) _ hinside
      rw [listRounds, if_pos hentered, show 1 + listRounds children + listRounds rest + fuel =
        listRounds children + (listRounds rest + fuel) + 1 by omega, enforceLoop, hend]
      simp only [if_pos hpos, hheader, Bool.false_eq_true, if_false, if_neg hobject,
        if_pos hentered.symm, hchild, hstep]
      rw [← ite_and]
      apply if_congr _ rfl rfl
      simp only [Values.listed, if_pos hentered, List.forall_mem_append]
    · rw [listRounds, if_neg hentered, show 1 + 0 + listRounds rest + fuel =
        listRounds rest + fuel + 1 by omega, enforceLoop, hend]
      simp only [if_pos hpos, hheader, Bool.false_eq_true, if_false, if_neg hobject,
        if_neg fun h => hentered (Or.symm h), hstep]
      simp [Values.listed, hentered]

/-- The sanity test passes over a run, and notes the challenge password. -/
theorem sanityLoop_encode (v : Values) (hv : v.WellFormed) (hplain : v.Plain) (der post : Bytes)
    (fuel ptr : Nat) (pop : Bool) (hder : der.drop ptr = v.encode ++ post) :
    sanityLoop A der (listRounds v + fuel) ptr pop =
      sanityLoop A der fuel (ptr + v.encode.length)
        (pop || decide (oidChallengePassword ∈ v.listed)) := by
  induction v generalizing fuel ptr post pop with
  | nil => simp [listRounds, Values.encode, Values.listed]
  | prim id content rest ih =>
    obtain ⟨hsize, huniversal, hrest⟩ := hv
    obtain ⟨hobjectClass, hsequence, hset, hplain⟩ := hplain
    obtain ⟨hpos, hheader, hnext⟩ := listHeader_prim hA hsize hder
    have hstep := fun pop => ih hrest hplain post fuel _ pop hnext
    have hend : ptr + (Values.prim id content rest).encode.length =
        ptr + ((header id false content.length).length + content.length) + rest.encode.length := by
      simp only [Values.encode, List.length_append]
      omega
    rw [listRounds, Nat.add_assoc, Nat.add_comm 1, sanityLoop, hend]
    simp only [if_pos hpos, hheader, Bool.false_eq_true, if_false]
    by_cases hobject : id.tag = tagObject
    · have hid : id = universal tagObject := by
        cases id
        simp_all [universal]
      subst hid
      have hvalid : oidValid content = true := (huniversal rfl).2.2.2 rfl
      have hnid : decide (A.obj2nid content = nidChallengePassword) =
          decide (oidChallengePassword = content) := by
        rw [decide_eq_decide, hA.obj2nid_challengePassword content hvalid, eq_comm]
      simp only [if_pos hobject, listObject hA hvalid hsize.2 hder, hstep, hnid]
      simp [Values.listed, Bool.or_assoc, Bool.decide_or]
    · have hother : id ≠ universal tagObject := fun h => hobject (by rw [h]; rfl)
      rw [if_neg hobject, if_neg (by simp [hsequence, hset]), Nat.add_assoc, hstep]
      simp [Values.listed, hother]
  | cons id children rest ihc ihr =>
    obtain ⟨hsize, -, hchildren, hrest⟩ := hv
    obtain ⟨hobject, hinner, hplain⟩ := hplain
    obtain ⟨hpos, hheader, hinside⟩ := listHeader_cons hA hsize hder
    have hnext := drop_past hinside rfl
    have hstep := fun pop => ihr hrest hplain post fuel _ pop hnext
    have hend : ptr + (Values.cons id children rest).encode.length =
        ptr + (header id true children.encode.length).length + children.encode.length +
          rest.encode.length := by
      simp only [Values.encode, List.length_append]
      omega
    by_cases hentered : id.tag = tagSequence ∨ id.tag = tagSet
    · have hchild := ihc hchildren (hinner hentered) (rest.encode ++ post)
        (listRounds rest + fuel) _ pop hinside
      rw [listRounds, if_pos hentered, show 1 + listRounds children + listRounds rest + fuel =
        listRounds children + (listRounds rest + fuel) + 1 by omega, sanityLoop, hend]
      simp only [if_pos hpos, hheader, Bool.false_eq_true, if_false, if_neg hobject,
        if_pos hentered.symm, hchild, hstep]
      simp [Values.listed, hentered, Bool.or_assoc, Bool.decide_or]
    · rw [listRounds, if_neg hentered, show 1 + 0 + listRounds rest + fuel =
        listRounds rest + fuel + 1 by omega, sanityLoop, hend]
      simp only [if_pos hpos, hheader, Bool.false_eq_true, if_false, if_neg hobject,
        if_neg fun h => hentered (Or.symm h), hstep]
      simp [Values.listed, hentered]

end List

end LibEst.Server.CsrAttrs
