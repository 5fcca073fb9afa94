import LibEst.Lib.ByteString

/-! Distinguished encoding of ASN.1: identifier and length octets, runs of
values, the object identifiers in them, and a reader of headers. A run is its
first value followed by a run, so that one induction covers a tree and its
siblings. -/
namespace LibEst.Lib.Der

open LibEst.Lib.ByteString

instance neZeroFour : NeZero 4 := ⟨by decide⟩

structure Identifier where
  cls : Fin 4
  tag : Nat
  deriving DecidableEq, Repr

def universal (tag : Nat) : Identifier where
  cls := 0
  tag := tag

def tagInteger : Nat := 2
def tagBitString : Nat := 3
def tagObject : Nat := 6
def tagSequence : Nat := 16
def tagSet : Nat := 17

/-- The digits of a number, the highest first. -/
def bigEndian (base n : Nat) : List Nat := (Nat.digits base n).reverse

/-- All bytes but the last have the high bit. -/
def continued : List Nat → Bytes
  | [] => []
  | [d] => [UInt8.ofNat d]
  | d :: ds => UInt8.ofNat (128 + d) :: continued ds

def leadingOctet (id : Identifier) (constructed : Bool) : UInt8 :=
  UInt8.ofNat (id.cls.val * 64 + (if constructed then 32 else 0) + min id.tag 31)

def identifierOctets (id : Identifier) (constructed : Bool) : Bytes :=
  leadingOctet id constructed ::
    if id.tag < 31 then [] else continued (bigEndian 128 id.tag)

def lengthOctets (n : Nat) : Bytes :=
  if n < 128 then [UInt8.ofNat n]
  else UInt8.ofNat (128 + (bigEndian 256 n).length) :: (bigEndian 256 n).map UInt8.ofNat

def header (id : Identifier) (constructed : Bool) (n : Nat) : Bytes :=
  identifierOctets id constructed ++ lengthOctets n

theorem header_length_pos (id : Identifier) (constructed : Bool) (n : Nat) :
    1 < (header id constructed n).length := by
  have hlength : 0 < (lengthOctets n).length := by
    unfold lengthOctets
    split <;> simp
  rw [header, identifierOctets, List.length_append, List.length_cons]
  omega

/-- A run of values. -/
inductive Values where
  | nil
  | prim (id : Identifier) (content : Bytes) (rest : Values)
  | cons (id : Identifier) (children rest : Values)
  deriving DecidableEq, Repr

namespace Values

def append : Values → Values → Values
  | nil, tail => tail
  | prim id content rest, tail => prim id content (rest.append tail)
  | cons id children rest, tail => cons id children (rest.append tail)

def encode : Values → Bytes
  | nil => []
  | prim id content rest => header id false content.length ++ content ++ rest.encode
  | cons id children rest =>
      header id true children.encode.length ++ children.encode ++ rest.encode

/-- The contents of all object identifiers, at any depth. -/
def oids : Values → List Bytes
  | nil => []
  | prim id content rest => (if id = universal tagObject then [content] else []) ++ rest.oids
  | cons _ children rest => children.oids ++ rest.oids

/-- Those that a reader meets who enters sequences and sets and skips what is
inside any other value. -/
def listed : Values → List Bytes
  | nil => []
  | prim id content rest => (if id = universal tagObject then [content] else []) ++ rest.listed
  | cons id children rest =>
      (if id.tag = tagSequence ∨ id.tag = tagSet then children.listed else []) ++ rest.listed

@[simp]
theorem append_nil (v : Values) : v.append nil = v := by
  induction v with
  | nil => rfl
  | prim id content rest ih => rw [append, ih]
  | cons id children rest _ ih => rw [append, ih]

theorem encode_append (a b : Values) : (a.append b).encode = a.encode ++ b.encode := by
  induction a with
  | nil => rfl
  | prim id content rest ih => simp only [append, encode, ih, List.append_assoc]
  | cons id children rest _ ih => simp only [append, encode, ih, List.append_assoc]

theorem oids_append (a b : Values) : (a.append b).oids = a.oids ++ b.oids := by
  induction a with
  | nil => rfl
  | prim id content rest ih => simp only [append, oids, ih, List.append_assoc]
  | cons id children rest _ ih => simp only [append, oids, ih, List.append_assoc]

end Values

/-- The bytes end a subidentifier, and none of those that start one is padding. -/
def oidValidFrom (start : Bool) : Bytes → Bool
  | [] => start
  | b :: rest => !(start && b == 128) && oidValidFrom (b < 128) rest

/-- The subidentifiers of an object identifier are complete and minimal. -/
def oidValid (content : Bytes) : Bool := !content.isEmpty && oidValidFrom true content

/-- What distinguishes a run of values from other trees: the sizes that a header
can carry, no end-of-contents mark, object identifiers that are valid and
primitive, sequences and sets that are constructed. -/
def Values.WellFormed : Values → Prop
  | .nil => True
  | .prim id content rest =>
      (id.tag < 2 ^ 31 ∧ content.length < 2 ^ 31) ∧
      (id.cls = 0 → id.tag ≠ 0 ∧ id.tag ≠ tagSequence ∧ id.tag ≠ tagSet ∧
        (id.tag = tagObject → oidValid content = true)) ∧ rest.WellFormed
  | .cons id children rest =>
      (id.tag < 2 ^ 31 ∧ children.encode.length < 2 ^ 31) ∧
      (id.cls = 0 → id.tag ≠ 0 ∧ id.tag ≠ tagObject) ∧ children.WellFormed ∧ rest.WellFormed

/-- Where a reader of the listed identifiers looks, the tag numbers of object
identifiers, sequences and sets stand for these types only. -/
def Values.Plain : Values → Prop
  | .nil => True
  | .prim id _ rest =>
      (id.tag = tagObject → id.cls = 0) ∧ id.tag ≠ tagSequence ∧ id.tag ≠ tagSet ∧ rest.Plain
  | .cons id children rest =>
      id.tag ≠ tagObject ∧ (id.tag = tagSequence ∨ id.tag = tagSet → children.Plain) ∧ rest.Plain

namespace Values

theorem WellFormed.append {a b : Values} (ha : a.WellFormed) (hb : b.WellFormed) :
    (a.append b).WellFormed := by
  induction a with
  | nil => exact hb
  | prim id content rest ih => exact ⟨ha.1, ha.2.1, ih ha.2.2⟩
  | cons id children rest _ ih => exact ⟨ha.1, ha.2.1, ha.2.2.1, ih ha.2.2.2⟩

theorem Plain.append {a b : Values} (ha : a.Plain) (hb : b.Plain) : (a.append b).Plain := by
  induction a with
  | nil => exact hb
  | prim id content rest ih => exact ⟨ha.1, ha.2.1, ha.2.2.1, ih ha.2.2.2⟩
  | cons id children rest _ ih => exact ⟨ha.1, ha.2.1, ih ha.2.2⟩

theorem listed_sublist_oids (v : Values) : v.listed.Sublist v.oids := by
  induction v with
  | nil => exact List.Sublist.refl []
  | prim id content rest ih => exact (List.Sublist.refl _).append ih
  | cons id children rest ihc ihr =>
    refine List.Sublist.append ?_ ihr
    split
    · exact ihc
    · exact List.nil_sublist _

theorem WellFormed.valid {v : Values} (hv : v.WellFormed) {oid : Bytes} (h : oid ∈ v.oids) :
    oidValid oid = true := by
  induction v with
  | nil => cases h
  | prim id content rest ih =>
    rw [oids, List.mem_append] at h
    rcases h with h | h
    · split at h
      · rename_i hid
        rw [List.mem_singleton] at h
        subst hid h
        exact (hv.2.1 rfl).2.2.2 rfl
      · cases h
    · exact ih hv.2.2 h
  | cons id children rest ihc ihr =>
    rw [oids, List.mem_append] at h
    exact h.elim (ihc hv.2.2.1) (ihr hv.2.2.2)

/-- A run has room for its object identifiers. -/
theorem oids_length_le (v : Values) :
    v.oids.length ≤ v.encode.length ∧ ∀ oid ∈ v.oids, oid.length ≤ v.encode.length := by
  induction v with
  | nil => simp [oids]
  | prim id content rest ih =>
    have hheader := header_length_pos id false content.length
    simp only [oids, encode, List.length_append, List.mem_append]
    constructor
    · split <;> simp only [List.length_cons, List.length_nil] <;> omega
    · rintro oid (h | h)
      · split at h
        · rw [List.mem_singleton] at h
          subst h
          omega
        · cases h
      · have := ih.2 oid h
        omega
  | cons id children rest ihc ihr =>
    simp only [oids, encode, List.length_append, List.mem_append]
    constructor
    · omega
    · rintro oid (h | h)
      · have := ihc.2 oid h
        omega
      · have := ihr.2 oid h
        omega

end Values

section Reader

structure Header where
  id : Identifier
  constructed : Bool
  len : Nat
  /-- The octets of the header itself. -/
  size : Nat
  deriving DecidableEq, Repr

/-- A tag number behind its first octet, and what is left. -/
def readContinued (acc : Nat) : Bytes → Option (Nat × Bytes)
  | [] => none
  | b :: rest =>
      if b < 128 then some (acc * 128 + b.toNat, rest)
      else readContinued (acc * 128 + (b.toNat - 128)) rest

def readBigEndian (bytes : Bytes) : Nat := bytes.foldl (fun acc b => acc * 256 + b.toNat) 0

def readLength : Bytes → Option (Nat × Bytes)
  | [] => none
  | b :: rest =>
      if b < 128 then some (b.toNat, rest)
      else if b = 128 ∨ rest.length < b.toNat - 128 then none
      else some (readBigEndian (rest.take (b.toNat - 128)), rest.drop (b.toNat - 128))

def readIdentifier : Bytes → Option (Identifier × Bool × Bytes)
  | [] => none
  | b :: rest => do
      let (tag, rest) ← if b.toNat % 32 < 31 then some (b.toNat % 32, rest) else readContinued 0 rest
      some (⟨⟨b.toNat / 64, by have := b.toNat_lt; omega⟩, tag⟩, 32 ≤ b.toNat % 64, rest)

/-- The header at the front of the bytes; the indefinite form is not read. -/
def readHeader (bytes : Bytes) : Option Header := do
  let (id, constructed, rest) ← readIdentifier bytes
  let (len, rest) ← readLength rest
  some { id := id, constructed := constructed, len := len, size := bytes.length - rest.length }

section Extension

variable {bytes rest : Bytes} (more : Bytes)

theorem readContinued_append {acc n : Nat} (h : readContinued acc bytes = some (n, rest)) :
    readContinued acc (bytes ++ more) = some (n, rest ++ more) ∧ rest.length < bytes.length := by
  induction bytes generalizing acc with
  | nil => cases h
  | cons b bytes ih =>
    rw [readContinued] at h
    rw [List.cons_append, readContinued]
    split at h
    · rename_i hlast
      simp only [Option.some.injEq, Prod.mk.injEq] at h
      rw [if_pos hlast, h.1, h.2]
      exact ⟨rfl, Nat.lt_succ_self _⟩
    · rename_i hmore
      rw [if_neg hmore]
      have hnext := ih h
      exact ⟨hnext.1, Nat.lt_succ_of_lt hnext.2⟩

theorem readLength_append {n : Nat} (h : readLength bytes = some (n, rest)) :
    readLength (bytes ++ more) = some (n, rest ++ more) ∧ rest.length < bytes.length := by
  cases bytes with
  | nil => cases h
  | cons b bytes =>
    rw [readLength] at h
    rw [List.cons_append, readLength]
    split at h
    · rename_i hshort
      simp only [Option.some.injEq, Prod.mk.injEq] at h
      rw [if_pos hshort, h.1, h.2]
      exact ⟨rfl, Nat.lt_succ_self _⟩
    · rename_i hlong
      rw [if_neg hlong]
      split at h
      · cases h
      · rename_i hfits
        simp only [Option.some.injEq, Prod.mk.injEq] at h
        push Not at hfits
        rw [if_neg (by rw [List.length_append]; push Not; exact ⟨hfits.1, by omega⟩),
          List.take_append_of_le_length hfits.2, List.drop_append_of_le_length hfits.2, h.1, h.2]
        refine ⟨rfl, ?_⟩
        rw [← h.2, List.length_drop, List.length_cons]
        omega

theorem readIdentifier_append {id : Identifier} {constructed : Bool}
    (h : readIdentifier bytes = some (id, constructed, rest)) :
    readIdentifier (bytes ++ more) = some (id, constructed, rest ++ more) ∧
      rest.length < bytes.length := by
  cases bytes with
  | nil => cases h
  | cons b bytes =>
    rw [readIdentifier] at h
    rw [List.cons_append, readIdentifier]
    split at h
    · rename_i hlow
      simp only [Option.bind_eq_bind, Option.bind_some, Option.some.injEq, Prod.mk.injEq] at h
      rw [if_pos hlow]
      simp only [Option.bind_eq_bind, Option.bind_some, h.1, h.2.1, h.2.2]
      exact ⟨trivial, Nat.lt_succ_self _⟩
    · rename_i hhigh
      rw [if_neg hhigh]
      simp only [Option.bind_eq_bind, Option.bind_eq_some_iff] at h
      obtain ⟨⟨tag, left⟩, hread, h⟩ := h
      simp only [Option.some.injEq, Prod.mk.injEq] at h
      have hnext := readContinued_append more hread
      rw [hnext.1]
      simp only [Option.bind_eq_bind, Option.bind_some, h.1, h.2.1, h.2.2]
      rw [h.2.2] at hnext
      exact ⟨trivial, Nat.lt_succ_of_lt hnext.2⟩

/-- A header is read without a look at what stands behind it. -/
theorem readHeader_append {h : Header} (hread : readHeader bytes = some h) :
    readHeader (bytes ++ more) = some h ∧ 0 < h.size := by
  unfold readHeader at hread ⊢
  simp only [Option.bind_eq_bind, Option.bind_eq_some_iff] at hread
  obtain ⟨⟨id, constructed, afterId⟩, hid, ⟨len, afterLen⟩, hlen, hread⟩ := hread
  have hidMore := readIdentifier_append more hid
  have hlenMore := readLength_append more hlen
  simp only [Option.bind_eq_bind, hidMore.1, hlenMore.1, Option.bind_some]
  have hsize : (bytes ++ more).length - (afterLen ++ more).length =
      bytes.length - afterLen.length := by
    rw [List.length_append, List.length_append]
    omega
  rw [Option.some.injEq] at hread
  rw [hsize, hread]
  refine ⟨rfl, ?_⟩
  rw [← hread]
  exact Nat.sub_pos_of_lt (Nat.lt_trans hlenMore.2 hidMore.2)

end Extension

theorem foldl_bigEndian {base : Nat} (n : Nat) :
    (bigEndian base n).foldl (fun acc d => acc * base + d) 0 = n := by
  rw [bigEndian, List.foldl_reverse]
  have hfold : (Nat.digits base n).foldr (fun d acc => acc * base + d) 0 =
      Nat.ofDigits base (Nat.digits base n) := by
    rw [Nat.ofDigits_eq_foldr]
    congr 1
    funext d acc
    rw [Nat.mul_comm]
    exact Nat.add_comm _ _
  rw [hfold, Nat.ofDigits_digits]

theorem readContinued_continued {ds : List Nat} (hne : ds ≠ []) (hdigit : ∀ d ∈ ds, d < 128)
    (acc : Nat) (rest : Bytes) :
    readContinued acc (continued ds ++ rest) =
      some (ds.foldl (fun acc d => acc * 128 + d) acc, rest) := by
  induction ds generalizing acc with
  | nil => exact absurd rfl hne
  | cons d ds ih =>
    have hd : d < 128 := hdigit d (by simp)
    cases ds with
    | nil =>
      have hval : (UInt8.ofNat d).toNat = d := by
        rw [UInt8.toNat_ofNat']
        omega
      have hlow : UInt8.ofNat d < 128 := by
        rw [UInt8.lt_iff_toNat_lt, hval]
        exact hd
      simp [continued, readContinued, hlow, hval]
    | cons e es =>
      have hval : (UInt8.ofNat (128 + d)).toNat = 128 + d := by
        rw [UInt8.toNat_ofNat']
        omega
      have hhigh : ¬ UInt8.ofNat (128 + d) < 128 := by
        rw [UInt8.lt_iff_toNat_lt, hval]
        simp
      have hrest := ih (by simp) (fun x hx => hdigit x (List.mem_cons_of_mem d hx))
        (acc * 128 + d)
      rw [continued, List.cons_append, readContinued, if_neg hhigh, hval, Nat.add_sub_cancel_left,
        hrest]
      · rfl
      · exact List.cons_ne_nil e es

theorem readBigEndian_map {ds : List Nat} (hdigit : ∀ d ∈ ds, d < 256) (acc : Nat) :
    (ds.map UInt8.ofNat).foldl (fun acc b => acc * 256 + b.toNat) acc =
      ds.foldl (fun acc d => acc * 256 + d) acc := by
  induction ds generalizing acc with
  | nil => rfl
  | cons d ds ih =>
    have hval : (UInt8.ofNat d).toNat = d := by
      rw [UInt8.toNat_ofNat']
      have := hdigit d (by simp)
      omega
    rw [List.map_cons, List.foldl_cons, List.foldl_cons, hval,
      ih fun x hx => hdigit x (List.mem_cons_of_mem d hx)]

theorem mem_bigEndian_lt {base n d : Nat} (hbase : 1 < base) (hd : d ∈ bigEndian base n) :
    d < base :=
  Nat.digits_lt_base hbase (List.mem_reverse.mp hd)

theorem bigEndian_ne_nil {base n : Nat} (hn : n ≠ 0) : bigEndian base n ≠ [] := by
  unfold bigEndian
  rw [ne_eq, List.reverse_eq_nil_iff]
  exact Nat.digits_ne_nil_iff_ne_zero.mpr hn

/-- Four bytes are enough for the sizes of a well formed run. -/
theorem bigEndian_length_le {n : Nat} (hn : n < 2 ^ 31) : (bigEndian 256 n).length ≤ 4 := by
  rw [bigEndian, List.length_reverse]
  apply (Nat.digits_length_le_iff (by decide) n).mpr
  exact Nat.lt_trans hn (by decide)

theorem readIdentifier_octets (id : Identifier) (constructed : Bool) (rest : Bytes) :
    readIdentifier (identifierOctets id constructed ++ rest) = some (id, constructed, rest) := by
  have hcls := id.cls.isLt
  have hval : (leadingOctet id constructed).toNat =
      id.cls.val * 64 + (if constructed then 32 else 0) + min id.tag 31 := by
    rw [leadingOctet, UInt8.toNat_ofNat']
    split <;> omega
  have hquot : (leadingOctet id constructed).toNat / 64 = id.cls.val := by
    rw [hval]
    split <;> omega
  have hbit : decide (32 ≤ (leadingOctet id constructed).toNat % 64) = constructed := by
    rw [hval]
    cases constructed <;> simp <;> omega
  have hlow : (leadingOctet id constructed).toNat % 32 = min id.tag 31 := by
    rw [hval]
    split <;> omega
  unfold identifierOctets readIdentifier
  simp only [List.cons_append, hquot, hbit, hlow]
  by_cases htag : id.tag < 31
  · rw [if_pos (by omega), if_pos htag, Nat.min_eq_left (by omega)]
    rfl
  · have hcontinued := readContinued_continued (bigEndian_ne_nil (by omega : id.tag ≠ 0))
      (fun d hd => mem_bigEndian_lt (by decide) hd) 0 rest
    rw [if_neg (by omega), if_neg htag, hcontinued, foldl_bigEndian]
    rfl

theorem readLength_octets {n : Nat} (hn : n < 2 ^ 31) (rest : Bytes) :
    readLength (lengthOctets n ++ rest) = some (n, rest) := by
  unfold lengthOctets
  split
  · rename_i hshort
    have hval : (UInt8.ofNat n).toNat = n := by
      rw [UInt8.toNat_ofNat']
      omega
    have hlow : UInt8.ofNat n < 128 := by
      rw [UInt8.lt_iff_toNat_lt, hval]
      exact hshort
    simp [readLength, hlow, hval]
  · rename_i hlong
    have hcount := bigEndian_length_le hn
    have hpos : 0 < (bigEndian 256 n).length :=
      List.length_pos_iff.mpr (bigEndian_ne_nil (by omega))
    have hval : (UInt8.ofNat (128 + (bigEndian 256 n).length)).toNat =
        128 + (bigEndian 256 n).length := by
      rw [UInt8.toNat_ofNat']
      omega
    have hhigh : ¬ UInt8.ofNat (128 + (bigEndian 256 n).length) < 128 := by
      rw [UInt8.lt_iff_toNat_lt, hval]
      simp
    have hdefinite : UInt8.ofNat (128 + (bigEndian 256 n).length) ≠ 128 := by
      intro h
      have hsame := congrArg UInt8.toNat h
      rw [hval] at hsame
      simp only [UInt8.reduceToNat] at hsame
      omega
    rw [List.cons_append, readLength, if_neg hhigh, hval, Nat.add_sub_cancel_left, if_neg]
    · have hread : readBigEndian ((bigEndian 256 n).map UInt8.ofNat) = n := by
        rw [readBigEndian, readBigEndian_map fun d hd => mem_bigEndian_lt (by decide) hd,
          foldl_bigEndian]
      rw [List.take_left' (by simp), List.drop_left' (by simp), hread]
    · rw [List.length_append, List.length_map]
      rintro (h | h)
      · exact hdefinite h
      · omega

theorem readHeader_header (id : Identifier) (constructed : Bool) {n : Nat} (hn : n < 2 ^ 31)
    (rest : Bytes) :
    readHeader (header id constructed n ++ rest) =
      some { id := id, constructed := constructed, len := n,
             size := (header id constructed n).length } := by
  have hidentifier : readIdentifier (header id constructed n ++ rest) =
      some (id, constructed, lengthOctets n ++ rest) := by
    rw [header, List.append_assoc, readIdentifier_octets]
  simp [readHeader, hidentifier, readLength_octets hn]

/-- Two encodings that start alike have the same header and the same content. -/
theorem header_append_inj {id id' : Identifier} {c c' : Bool} {x x' y y' : Bytes}
    (hx : x.length < 2 ^ 31) (hx' : x'.length < 2 ^ 31)
    (h : header id c x.length ++ x ++ y = header id' c' x'.length ++ x' ++ y') :
    id = id' ∧ c = c' ∧ x = x' ∧ y = y' := by
  rw [List.append_assoc, List.append_assoc] at h
  have hread := congrArg readHeader h
  rw [readHeader_header id c hx, readHeader_header id' c' hx'] at hread
  simp only [Option.some.injEq, Header.mk.injEq] at hread
  obtain ⟨rfl, rfl, hlen, -⟩ := hread
  rw [hlen] at h
  have hrest := List.append_cancel_left h
  have hsame := List.append_inj hrest hlen
  exact ⟨rfl, rfl, hsame.1, hsame.2⟩

theorem Values.encode_ne_nil_of_prim (id : Identifier) (content : Bytes) (rest : Values) :
    (Values.prim id content rest).encode ≠ [] := by
  have hheader := header_length_pos id false content.length
  intro h
  have hlen := congrArg List.length h
  simp only [Values.encode, List.length_append, List.length_nil] at hlen
  omega

theorem Values.encode_ne_nil_of_cons (id : Identifier) (children rest : Values) :
    (Values.cons id children rest).encode ≠ [] := by
  have hheader := header_length_pos id true children.encode.length
  intro h
  have hlen := congrArg List.length h
  simp only [Values.encode, List.length_append, List.length_nil] at hlen
  omega

theorem Values.encode_injective {v w : Values} (hv : v.WellFormed) (hw : w.WellFormed)
    (h : v.encode = w.encode) : v = w := by
  induction v generalizing w with
  | nil =>
    cases w with
    | nil => rfl
    | prim id content rest => exact absurd h.symm (encode_ne_nil_of_prim id content rest)
    | cons id children rest => exact absurd h.symm (encode_ne_nil_of_cons id children rest)
  | prim id content rest ih =>
    cases w with
    | nil => exact absurd h (encode_ne_nil_of_prim id content rest)
    | prim id' content' rest' =>
      obtain ⟨rfl, -, rfl, hrest⟩ := header_append_inj hv.1.2 hw.1.2 h
      rw [ih hv.2.2 hw.2.2 hrest]
    | cons id' children' rest' =>
      obtain ⟨-, hkind, -⟩ := header_append_inj hv.1.2 hw.1.2 h
      cases hkind
  | cons id children rest ihc ihr =>
    cases w with
    | nil => exact absurd h (encode_ne_nil_of_cons id children rest)
    | prim id' content' rest' =>
      obtain ⟨-, hkind, -⟩ := header_append_inj hv.1.2 hw.1.2 h
      cases hkind
    | cons id' children' rest' =>
      obtain ⟨rfl, -, hchildren, hrest⟩ := header_append_inj hv.1.2 hw.1.2 h
      rw [ihc hv.2.2.1 hw.2.2.1 hchildren, ihr hv.2.2.2 hw.2.2.2 hrest]

end Reader

end LibEst.Lib.Der
