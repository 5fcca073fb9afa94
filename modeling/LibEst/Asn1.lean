import LibEst.Lib.Der
import LibEst.OpenSsl

/-! OpenSSL's reading of ASN.1 as the attribute code uses it: headers, object
identifiers and their texts. An object is the content of its encoding. -/
namespace LibEst.Asn1

open LibEst.OpenSsl LibEst.Lib.ByteString LibEst.Lib.Der

/-- What `ASN1_get_object` returns and stores. The flags are the bits `0x80`,
`0x20` and `0x01` of its result, `headerLen` is how far it moves the pointer. -/
structure ObjectHeader where
  error : Bool
  constructed : Bool
  indefinite : Bool
  headerLen : Nat
  len : Nat
  tag : Nat
  xclass : Nat
  deriving DecidableEq

structure Asn1Ops where
  getObject : Bytes → Int → ObjectHeader
  /-- The object and the length of its encoding. -/
  d2iObject : Bytes → Int → Option (Bytes × Nat)
  obj2nid : Bytes → Nid
  i2tObject : Bytes → Bytes

def oidChallengePassword : Bytes := [0x2A, 0x86, 0x48, 0x86, 0xF7, 0x0D, 0x01, 0x09, 0x07]
def oidRsaEncryption : Bytes := [0x2A, 0x86, 0x48, 0x86, 0xF7, 0x0D, 0x01, 0x01, 0x01]
def oidEcPublicKey : Bytes := [0x2A, 0x86, 0x48, 0xCE, 0x3D, 0x02, 0x01]

def estMaxAttrLen : Nat := 128

/-- The text of an object in a buffer of `EST_MAX_ATTR_LEN`. -/
def Asn1Ops.oidText (A : Asn1Ops) (object : Bytes) : Bytes :=
  (A.i2tObject object).take (estMaxAttrLen - 1)

/-- What OpenSSL promises on a distinguished encoding that is as long as the
caller says, and on object identifiers: an object is written as its long name,
or as numbers and dots. -/
structure Asn1Ops.Lawful (A : Asn1Ops) : Prop where
  getObject_header : ∀ (id : Identifier) (constructed : Bool) (content rest : Bytes) (max : Int),
    id.tag < 2 ^ 31 → content.length < 2 ^ 31 →
    ((header id constructed content.length).length + content.length : Nat) ≤ max →
    A.getObject (header id constructed content.length ++ content ++ rest) max =
      { error := false, constructed := constructed, indefinite := false,
        headerLen := (header id constructed content.length).length, len := content.length,
        tag := id.tag, xclass := id.cls.val * 64 }
  d2iObject_valid : ∀ (content rest : Bytes) (max : Int),
    oidValid content = true → content.length < 2 ^ 31 →
    ((header (universal tagObject) false content.length).length + content.length : Nat) ≤ max →
    A.d2iObject (header (universal tagObject) false content.length ++ content ++ rest) max =
      some (content, (header (universal tagObject) false content.length).length + content.length)
  obj2nid_challengePassword : ∀ content, oidValid content = true →
    (A.obj2nid content = nidChallengePassword ↔ content = oidChallengePassword)
  text_injective : ∀ a b, oidValid a = true → oidValid b = true →
    A.i2tObject a = A.i2tObject b → a = b
  text_rsaEncryption : A.i2tObject oidRsaEncryption = ascii "rsaEncryption"
  text_ecPublicKey : A.i2tObject oidEcPublicKey = ascii "id-ecPublicKey"
  /-- Below an object without a name that is written with many characters there
  is another one whose text goes on. -/
  text_continues : ∀ a, oidValid a = true → estMaxAttrLen - 1 ≤ (A.i2tObject a).length →
    ∃ b more, oidValid b = true ∧ b.length = a.length + 1 ∧ A.i2tObject b = A.i2tObject a ++ more

/-- What OpenSSL promises on any bytes: a header that is read without an error
is read in the same way when more bytes follow, and every read moves on. -/
structure Asn1Ops.Local (A : Asn1Ops) : Prop where
  getObject_append : ∀ mem more : Bytes, (A.getObject mem mem.length).error = false →
    A.getObject (mem ++ more) (mem ++ more).length = A.getObject mem mem.length
  d2iObject_append : ∀ mem more : Bytes, (A.getObject mem mem.length).error = false →
    A.d2iObject (mem ++ more) (mem ++ more).length = A.d2iObject mem mem.length
  headerLen_pos : ∀ (mem : Bytes) (max : Int), (A.getObject mem max).error = false →
    0 < (A.getObject mem max).headerLen
  d2iObject_pos : ∀ (mem : Bytes) (max : Int) (object : Bytes) (used : Nat),
    A.d2iObject mem max = some (object, used) → 0 < used

/-- What OpenSSL promises of a header that is read without an error below some number of
bytes: it is not empty, and its content ends below that number. -/
structure Asn1Ops.Checked (A : Asn1Ops) : Prop where
  headerLen_pos : ∀ (mem : Bytes) (max : Int), (A.getObject mem max).error = false →
    0 < (A.getObject mem max).headerLen
  fits : ∀ (mem : Bytes) (max : Int), (A.getObject mem max).error = false →
    ((A.getObject mem max).headerLen + (A.getObject mem max).len : Int) ≤ max

section Texts

variable {A : Asn1Ops} (hA : A.Lawful)
include hA

/-- A text that ends inside the buffer belongs to one object only. -/
theorem oidText_injective {a b : Bytes} (ha : oidValid a = true) (hb : oidValid b = true)
    (hshort : (A.i2tObject a).length < estMaxAttrLen - 1) (h : A.oidText a = A.oidText b) :
    a = b := by
  have htext : A.oidText a = A.i2tObject a := List.take_of_length_le (by omega)
  have hlen : (A.oidText b).length = (A.i2tObject a).length := by rw [← h, htext]
  have hother : A.oidText b = A.i2tObject b := by
    unfold Asn1Ops.oidText at hlen ⊢
    rw [List.length_take] at hlen
    exact List.take_of_length_le (by omega)
  rw [htext, hother] at h
  exact hA.text_injective a b ha hb h

/-- A text that fills the buffer is shared with another object. -/
theorem exists_same_oidText {a : Bytes} (ha : oidValid a = true)
    (hlong : estMaxAttrLen - 1 ≤ (A.i2tObject a).length) :
    ∃ b, oidValid b = true ∧ b ≠ a ∧ b.length = a.length + 1 ∧ A.oidText b = A.oidText a := by
  obtain ⟨b, more, hvalid, hlen, htext⟩ := hA.text_continues a ha hlong
  refine ⟨b, hvalid, ?_, hlen, ?_⟩
  · rintro rfl
    omega
  · rw [Asn1Ops.oidText, htext, List.take_append_of_le_length hlong]
    rfl

end Texts

section Reader

/-- The header at the front of the bytes, in error if the content does not fit
below `max`. -/
def readObject (mem : Bytes) (max : Int) : ObjectHeader :=
  match readHeader mem with
  | some h =>
      { error := decide (max < h.size + h.len), constructed := h.constructed, indefinite := false,
        headerLen := h.size, len := h.len, tag := h.id.tag, xclass := h.id.cls.val * 64 }
  | none =>
      { error := true, constructed := false, indefinite := false, headerLen := 0, len := 0,
        tag := 0, xclass := 0 }

def readOid (mem : Bytes) (max : Int) : Option (Bytes × Nat) :=
  match readHeader mem with
  | some h =>
      let content := (mem.drop h.size).take h.len
      if h.id.tag = tagObject ∧ (h.size + h.len : Int) ≤ max ∧ oidValid content then
        some (content, h.size + h.len)
      else none
  | none => none

def hexByte (b : UInt8) : Bytes := [digitByte (b.toNat / 16), digitByte (b.toNat % 16)]

/-- The names that the reader knows; other objects are written in hexadecimal. -/
def readText (object : Bytes) : Bytes :=
  if object = oidRsaEncryption then ascii "rsaEncryption"
  else if object = oidEcPublicKey then ascii "id-ecPublicKey"
  else ascii "." ++ object.flatMap hexByte

def hostAsn1 : Asn1Ops where
  getObject := readObject
  d2iObject := readOid
  obj2nid object := if object = oidChallengePassword then nidChallengePassword else 0
  i2tObject := readText

theorem hexByte_injective {a b : UInt8} (h : hexByte a = hexByte b) : a = b := by
  have hall : ∀ m < 16, ∀ n < 16, digitByte m = digitByte n → m = n := by decide
  simp only [hexByte, List.cons.injEq, and_true] at h
  have hhigh := hall _ (by have := a.toNat_lt; omega) _ (by have := b.toNat_lt; omega) h.1
  have hlow := hall _ (by omega) _ (by omega) h.2
  apply UInt8.toNat_inj.mp
  omega

theorem flatMap_hexByte_injective {a b : Bytes} (h : a.flatMap hexByte = b.flatMap hexByte) :
    a = b := by
  induction a generalizing b with
  | nil =>
    cases b with
    | nil => rfl
    | cons y ys => cases h
  | cons x xs ih =>
    cases b with
    | nil => cases h
    | cons y ys =>
      rw [List.flatMap_cons, List.flatMap_cons] at h
      obtain ⟨hbyte, hrest⟩ := List.append_inj h rfl
      rw [hexByte_injective hbyte, ih hrest]

theorem readText_cases (object : Bytes) :
    (object = oidRsaEncryption ∧ readText object = ascii "rsaEncryption") ∨
    (object = oidEcPublicKey ∧ readText object = ascii "id-ecPublicKey") ∨
    readText object = ascii "." ++ object.flatMap hexByte := by
  unfold readText
  split
  · exact Or.inl ⟨by assumption, rfl⟩
  · split
    · exact Or.inr (Or.inl ⟨by assumption, rfl⟩)
    · exact Or.inr (Or.inr rfl)

theorem readText_injective {a b : Bytes} (h : readText a = readText b) : a = b := by
  have hnames : ascii "rsaEncryption" ≠ ascii "id-ecPublicKey" := by decide
  have hother : ∀ object : Bytes, ascii "." ++ object.flatMap hexByte ≠ ascii "rsaEncryption" ∧
      ascii "." ++ object.flatMap hexByte ≠ ascii "id-ecPublicKey" := by
    intro object
    constructor
    · exact fun h => absurd (List.cons.inj h).1 (by decide)
    · exact fun h => absurd (List.cons.inj h).1 (by decide)
  rcases readText_cases a with ⟨ha, hta⟩ | ⟨ha, hta⟩ | hta <;>
    rcases readText_cases b with ⟨hb, htb⟩ | ⟨hb, htb⟩ | htb <;> rw [hta, htb] at h
  · rw [ha, hb]
  · exact absurd h hnames
  · exact absurd h.symm (hother b).1
  · exact absurd h.symm hnames
  · rw [ha, hb]
  · exact absurd h.symm (hother b).2
  · exact absurd h (hother a).1
  · exact absurd h (hother a).2
  · exact flatMap_hexByte_injective (List.append_cancel_left h)

theorem oidValidFrom_append_one {start : Bool} {a : Bytes} (h : oidValidFrom start a = true) :
    oidValidFrom start (a ++ [1]) = true := by
  induction a generalizing start with
  | nil =>
    cases start with
    | false => cases h
    | true => decide
  | cons b rest ih =>
    rw [oidValidFrom, Bool.and_eq_true] at h
    rw [List.cons_append, oidValidFrom, Bool.and_eq_true]
    exact ⟨h.1, ih h.2⟩

theorem hostAsn1_lawful : hostAsn1.Lawful where
  getObject_header := by
    intro id constructed content rest max _ hlen hmax
    have hread := readHeader_header id constructed hlen (content ++ rest)
    rw [← List.append_assoc] at hread
    simp only [hostAsn1, readObject, hread]
    simp only [ObjectHeader.mk.injEq, decide_eq_false_iff_not, and_self, and_true]
    omega
  d2iObject_valid := by
    intro content rest max hvalid hlen hmax
    have hread := readHeader_header (universal tagObject) false hlen (content ++ rest)
    rw [← List.append_assoc] at hread
    have hcontent : ((header (universal tagObject) false content.length ++ content ++ rest).drop
        (header (universal tagObject) false content.length).length).take content.length =
        content := by
      rw [List.append_assoc, List.drop_left, List.take_left]
    simp only [hostAsn1, readOid, hread, hcontent]
    rw [if_pos ⟨rfl, by omega, hvalid⟩]
  obj2nid_challengePassword := by
    intro content _
    simp only [hostAsn1]
    split
    · simp_all
    · simp_all [nidChallengePassword]
  text_injective := by
    intro a b _ _ h
    exact readText_injective h
  text_rsaEncryption := by decide
  text_ecPublicKey := by decide
  text_continues := by
    intro a hvalid hlong
    have hunknown : readText a = ascii "." ++ a.flatMap hexByte := by
      rcases readText_cases a with ⟨rfl, -⟩ | ⟨rfl, -⟩ | htext
      · exact absurd hlong (by decide)
      · exact absurd hlong (by decide)
      · exact htext
    have hlength : ∀ bytes : Bytes, (bytes.flatMap hexByte).length = 2 * bytes.length := by
      intro bytes
      induction bytes with
      | nil => rfl
      | cons b rest ih =>
        rw [List.flatMap_cons, List.length_append, ih, List.length_cons]
        simp only [hexByte, List.length_cons, List.length_nil]
        omega
    have hlen : 63 ≤ a.length := by
      have htext : (readText a).length = 1 + 2 * a.length := by
        rw [hunknown, List.length_append, hlength]
        rfl
      have hbound : estMaxAttrLen - 1 ≤ (readText a).length := hlong
      unfold estMaxAttrLen at hbound
      omega
    refine ⟨a ++ [1], hexByte 1, ?_, by simp, ?_⟩
    · rw [oidValid, Bool.and_eq_true] at hvalid ⊢
      exact ⟨by simp, oidValidFrom_append_one hvalid.2⟩
    · show readText (a ++ [1]) = readText a ++ hexByte 1
      rcases readText_cases (a ++ [1]) with ⟨hname, -⟩ | ⟨hname, -⟩ | htext
      · have hsize := congrArg List.length hname
        rw [List.length_append] at hsize
        have hnine : oidRsaEncryption.length = 9 := rfl
        omega
      · have hsize := congrArg List.length hname
        rw [List.length_append] at hsize
        have hseven : oidEcPublicKey.length = 7 := rfl
        omega
      · rw [htext, hunknown, List.flatMap_append]
        simp

theorem readObject_ok {mem : Bytes} {max : Int} (h : (readObject mem max).error = false) :
    ∃ header, readHeader mem = some header ∧ (header.size + header.len : Int) ≤ max := by
  unfold readObject at h
  split at h
  · rename_i header hread
    exact ⟨header, hread, by simpa using h⟩
  · cases h

theorem hostAsn1_local : hostAsn1.Local where
  getObject_append := by
    intro mem more hok
    obtain ⟨header, hread, hfits⟩ := readObject_ok hok
    have hmore := (readHeader_append more hread).1
    simp only [hostAsn1, readObject, hread, hmore, List.length_append]
    simp only [ObjectHeader.mk.injEq, decide_eq_decide, and_true]
    omega
  d2iObject_append := by
    intro mem more hok
    obtain ⟨header, hread, hfits⟩ := readObject_ok hok
    have hmore := (readHeader_append more hread).1
    have hcontent : ((mem ++ more).drop header.size).take header.len =
        (mem.drop header.size).take header.len := by
      rw [List.drop_append_of_le_length (by omega),
        List.take_append_of_le_length (by rw [List.length_drop]; omega)]
    have hbound : (header.size + header.len : Int) ≤ (mem ++ more).length := by
      rw [List.length_append]
      omega
    simp only [hostAsn1, readOid, hread, hmore, hcontent, hfits, hbound, true_and]
  headerLen_pos := by
    intro mem max hok
    obtain ⟨header, hread, -⟩ := readObject_ok hok
    simp only [hostAsn1, readObject, hread]
    exact (readHeader_append [] hread).2
  d2iObject_pos := by
    intro mem max object used h
    simp only [hostAsn1, readOid] at h
    split at h
    · rename_i header hread
      split at h
      · have hpos := (readHeader_append [] hread).2
        simp only [Option.some.injEq, Prod.mk.injEq] at h
        omega
      · cases h
    · cases h

theorem hostAsn1_checked : hostAsn1.Checked where
  headerLen_pos := hostAsn1_local.headerLen_pos
  fits := by
    intro mem max hok
    obtain ⟨header, hread, hfits⟩ := readObject_ok hok
    simpa only [hostAsn1, readObject, hread] using hfits

end Reader

end LibEst.Asn1
