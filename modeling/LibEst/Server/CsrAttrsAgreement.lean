import LibEst.Server.CsrAttrsEnforcement
import LibEst.Server.Reference

/-! When the list that is enforced is the list that is sent. The condition is on
the lists that the server has; that it is needed is shown with requests that are
built for the purpose. -/
namespace LibEst.Server.CsrAttrs

open LibEst.Basic LibEst.OpenSsl LibEst.Base64 LibEst.Lib.ByteString LibEst.Lib.Der
open LibEst.Asn1 LibEst.Server.Context

section BuiltRequests

/-- A run of values of at most this size. -/
structure Bounded (v : Values) (n : Nat) : Prop where
  wellFormed : v.WellFormed
  length_le : v.encode.length ≤ n

theorem header_length_le {id : Identifier} {constructed : Bool} {n : Nat} (htag : id.tag < 31)
    (hn : n < 2 ^ 31) : (header id constructed n).length ≤ 6 := by
  have hcount := bigEndian_length_le hn
  have hlength : (lengthOctets n).length ≤ 5 := by
    unfold lengthOctets
    split
    · simp
    · rw [List.length_cons, List.length_map]
      omega
  rw [header, identifierOctets, if_pos htag, List.length_append]
  simp only [List.length_cons, List.length_nil]
  omega

theorem bounded_nil : Bounded .nil 0 := ⟨trivial, Nat.le_refl 0⟩

theorem bounded_prim {tag n m : Nat} {content : Bytes} {rest : Values}
    (htag : tag < 31) (hcontent : content.length ≤ n) (hn : n < 2 ^ 31)
    (hkind : tag ≠ 0 ∧ tag ≠ tagSequence ∧ tag ≠ tagSet ∧
      (tag = tagObject → oidValid content = true)) (hrest : Bounded rest m) :
    Bounded (.prim (universal tag) content rest) (6 + n + m) := by
  have hlen : content.length < 2 ^ 31 := Nat.lt_of_le_of_lt hcontent hn
  have hheader : (header (universal tag) false content.length).length ≤ 6 :=
    header_length_le htag hlen
  refine ⟨⟨⟨Nat.lt_trans htag (by decide), hlen⟩, fun _ => hkind, hrest.wellFormed⟩, ?_⟩
  have hmore := hrest.length_le
  simp only [Values.encode, List.length_append]
  omega

theorem bounded_value {tag m : Nat} {content : Bytes} {rest : Values}
    (htag : tag = tagInteger ∨ tag = tagBitString) (hcontent : content.length ≤ 1)
    (hrest : Bounded rest m) : Bounded (.prim (universal tag) content rest) (6 + 1 + m) := by
  apply bounded_prim _ hcontent (by decide) _ hrest
  · rcases htag with rfl | rfl <;> decide
  · rcases htag with rfl | rfl
    · exact ⟨by decide, by decide, by decide, fun h => absurd h (by decide)⟩
    · exact ⟨by decide, by decide, by decide, fun h => absurd h (by decide)⟩

theorem bounded_cons {id : Identifier} {n m : Nat} {children rest : Values} (htag : id.tag < 31)
    (hkind : id.cls = 0 → id.tag ≠ 0 ∧ id.tag ≠ tagObject) (hn : n < 2 ^ 31)
    (hchildren : Bounded children n) (hrest : Bounded rest m) :
    Bounded (.cons id children rest) (6 + n + m) := by
  have hlen : children.encode.length < 2 ^ 31 := Nat.lt_of_le_of_lt hchildren.length_le hn
  have hheader : (header id true children.encode.length).length ≤ 6 := header_length_le htag hlen
  refine ⟨⟨⟨Nat.lt_trans htag (by decide), hlen⟩, hkind, hchildren.wellFormed,
    hrest.wellFormed⟩, ?_⟩
  have hinside := hchildren.length_le
  have hmore := hrest.length_le
  simp only [Values.encode, List.length_append]
  omega

theorem bounded_sequence {n m : Nat} {children rest : Values} (hn : n < 2 ^ 31)
    (hchildren : Bounded children n) (hrest : Bounded rest m) :
    Bounded (sequence children rest) (6 + n + m) :=
  bounded_cons (by decide) (fun _ => ⟨by decide, by decide⟩) hn hchildren hrest

/-- Identifiers that fit into a request. -/
structure Small (oids : List Bytes) : Prop where
  count : oids.length ≤ 2000
  length : ∀ oid ∈ oids, oid.length ≤ 2000
  valid : ∀ oid ∈ oids, oidValid oid = true

theorem small_of_sublist {list : AttrList} (hsize : list.encode.length ≤ 1037) {oids : List Bytes}
    (h : oids.Sublist list.oids) :
    Small oids ∧ oids.length ≤ 1037 ∧ ∀ oid ∈ oids, oid.length ≤ 1037 := by
  have hroom := list.values.oids_length_le
  have hvalues := list.length_le_encode
  have hcount : oids.length ≤ 1037 := Nat.le_trans (Nat.le_trans h.length_le hroom.1) (by omega)
  have hlength : ∀ oid ∈ oids, oid.length ≤ 1037 := by
    intro oid hoid
    exact Nat.le_trans (hroom.2 oid (h.subset hoid)) (by omega)
  refine ⟨⟨by omega, ?_, ?_⟩, hcount, hlength⟩
  · intro oid hoid
    exact Nat.le_trans (hlength oid hoid) (by decide)
  · intro oid hoid
    exact AttrList.valid (h.subset hoid)

theorem bounded_object {oid : Bytes} {rest : Values} {m : Nat} (hvalid : oidValid oid = true)
    (hlen : oid.length ≤ 2000) (hrest : Bounded rest m) : Bounded (object oid rest) (2006 + m) :=
  bounded_prim (by decide) hlen (by decide)
    ⟨by decide, by decide, by decide, fun _ => hvalid⟩ hrest

/-- One attribute without values for each identifier. -/
def attributesOf : List Bytes → Values
  | [] => .nil
  | oid :: rest =>
      sequence (object oid (.cons (universal tagSet) .nil .nil)) (attributesOf rest)

theorem attributesOf_oids (oids : List Bytes) : (attributesOf oids).oids = oids := by
  induction oids with
  | nil => rfl
  | cons oid rest ih => simp [attributesOf, sequence, object, Values.oids, ih]

theorem attributesOf_bounded {oids : List Bytes} (hlen : ∀ oid ∈ oids, oid.length ≤ 2000)
    (hvalid : ∀ oid ∈ oids, oidValid oid = true) :
    Bounded (attributesOf oids) (2018 * oids.length) := by
  induction oids with
  | nil => exact bounded_nil
  | cons oid rest ih =>
    have hset : Bounded (.cons (universal tagSet) .nil .nil) 6 :=
      bounded_cons (by decide) (fun _ => ⟨by decide, by decide⟩) (by decide) bounded_nil bounded_nil
    have hobject := bounded_object (hvalid oid (by simp)) (hlen oid (by simp)) hset
    have hrest := ih (fun x hx => hlen x (List.mem_cons_of_mem oid hx))
      (fun x hx => hvalid x (List.mem_cons_of_mem oid hx))
    have hboth := bounded_sequence (by decide) hobject hrest
    refine ⟨hboth.wellFormed, Nat.le_trans hboth.length_le ?_⟩
    rw [List.length_cons]
    omega

/-- A request for a key of the given algorithm with the given attributes. -/
def requestFor (algorithm : Bytes) (oids : List Bytes) : Pkcs10 where
  version := [0]
  subject := .nil
  keyAlgorithm := algorithm
  keyParameters := .nil
  key := []
  attributes := attributesOf oids
  signatureAlgorithm := algorithm
  signatureParameters := .nil
  signature := []

theorem requestFor_oids (algorithm : Bytes) (oids : List Bytes) :
    (requestFor algorithm oids).oids = algorithm :: oids ++ [algorithm] := by
  simp [Pkcs10.oids, Pkcs10.tree, requestFor, sequence, object, Values.oids, attributesOf_oids,
    universal, tagInteger, tagBitString, tagObject]

theorem requestFor_wellFormed {algorithm : Bytes} {oids : List Bytes}
    (h : Small (algorithm :: oids)) : (requestFor algorithm oids).tree.WellFormed := by
  have halgorithm := bounded_object (h.valid algorithm (by simp)) (h.length algorithm (by simp))
    bounded_nil
  have hattributes : Bounded (attributesOf oids) 4036000 := by
    have hbounded := attributesOf_bounded
      (fun x hx => h.length x (List.mem_cons_of_mem algorithm hx))
      (fun x hx => h.valid x (List.mem_cons_of_mem algorithm hx))
    have hcount := h.count
    rw [List.length_cons] at hcount
    exact ⟨hbounded.wellFormed, Nat.le_trans hbounded.length_le (by omega)⟩
  have hbits : Bounded (.prim (universal tagBitString) [] .nil) 7 :=
    bounded_value (Or.inr rfl) (by decide) bounded_nil
  have htagged : Bounded (.cons { cls := 2, tag := 0 } (attributesOf oids) .nil) 4036006 :=
    bounded_cons (by decide) (fun h => absurd h (by decide)) (by decide) hattributes bounded_nil
  have hkey := bounded_sequence (by decide) (bounded_sequence (by decide) halgorithm hbits) htagged
  have hinfo : Bounded (.prim (universal tagInteger) [0] _) _ :=
    bounded_value (Or.inl rfl) (by decide) (bounded_sequence (by decide) bounded_nil hkey)
  exact (bounded_sequence (by decide) (bounded_sequence (by decide) hinfo
    (bounded_sequence (by decide) halgorithm hbits)) bounded_nil).wellFormed

theorem requestFor_body {C : Crypto} (hread : ReadsBack C.bioRead) {algorithm : Bytes}
    {oids : List Bytes} (h : Small (algorithm :: oids)) :
    CsrBody C (requestFor algorithm oids)
      (base64Text false (requestFor algorithm oids).tree.encode) where
  wellFormed := requestFor_wellFormed h
  decodes := by
    rw [Nat.mul_comm]
    exact estBase64Decode_base64Text hread (Values.encode_ne_nil_of_cons _ _ _)

end BuiltRequests

section Agreement

variable {A : Asn1Ops} (hA : A.Lawful)

/-- Seen through their texts, the required identifiers are in a request just
when the advertised ones are. -/
def SeenAlike (A : Asn1Ops) (required advertised : List Bytes) : Prop :=
  ∀ algorithm oids, Small (algorithm :: oids) →
    ((∀ oid ∈ required, A.oidText oid ∈ (algorithm :: oids).map A.oidText) ↔
      ∀ oid ∈ advertised, oid ∈ algorithm :: oids)

variable {required advertised : List Bytes} (halike : SeenAlike A required advertised)
  (hsmall : Small advertised)
include halike hsmall

theorem SeenAlike.texts (hne : advertised ≠ []) :
    ∀ oid ∈ required, A.oidText oid ∈ advertised.map A.oidText := by
  cases advertised with
  | nil => exact absurd rfl hne
  | cons algorithm rest => exact (halike algorithm rest hsmall).mpr fun oid hoid => hoid

/-- No other object shares the text of an advertised one: the request that has
it instead would pass. -/
theorem SeenAlike.no_alias {a b : Bytes} (ha : a ∈ advertised) (hvalid : oidValid b = true)
    (hlen : b.length ≤ 2000) (htext : A.oidText b = A.oidText a) : b = a := by
  by_contra hne
  have htexts := halike.texts hsmall (List.ne_nil_of_mem ha)
  have hsame : (advertised.map fun x => if x = a then b else x).map A.oidText =
      advertised.map A.oidText := by
    rw [List.map_map]
    apply List.map_congr_left
    intro x _
    simp only [Function.comp_apply]
    split
    · rename_i hx
      rw [htext, hx]
    · rfl
  have hreplaced : Small (advertised.map fun x => if x = a then b else x) := by
    constructor
    · rw [List.length_map]
      exact hsmall.count
    · intro oid hoid
      obtain ⟨x, hx, rfl⟩ := List.mem_map.mp hoid
      split
      · exact hlen
      · exact hsmall.length x hx
    · intro oid hoid
      obtain ⟨x, hx, rfl⟩ := List.mem_map.mp hoid
      split
      · exact hvalid
      · exact hsmall.valid x hx
  have hgone : a ∉ advertised.map fun x => if x = a then b else x := by
    rw [List.mem_map]
    rintro ⟨x, -, hx⟩
    split at hx
    · exact hne hx
    · rename_i hxa
      exact hxa hx
  revert hsame hreplaced hgone
  generalize advertised.map (fun x => if x = a then b else x) = replaced
  intro hsame hreplaced hgone
  cases replaced with
  | nil =>
    rw [List.map_nil, eq_comm, List.map_eq_nil_iff] at hsame
    rw [hsame] at ha
    cases ha
  | cons algorithm rest =>
    have hpasses := (halike algorithm rest hreplaced).mp (by rw [hsame]; exact htexts)
    exact hgone (hpasses a ha)

include hA

omit halike hsmall in
theorem small_known : Small [oidRsaEncryption] ∧ Small [oidEcPublicKey] ∧
    A.oidText oidRsaEncryption ≠ A.oidText oidEcPublicKey := by
  refine ⟨⟨by decide, by decide, by decide⟩, ⟨by decide, by decide, by decide⟩, ?_⟩
  rw [Asn1Ops.oidText, Asn1Ops.oidText, hA.text_rsaEncryption, hA.text_ecPublicKey]
  decide

theorem SeenAlike.required_sub {oid : Bytes} (hoid : oid ∈ required)
    (hvalid : oidValid oid = true) (hlen : oid.length ≤ 2000) : oid ∈ advertised := by
  by_cases hempty : advertised = []
  · obtain ⟨hrsa, hec, hdistinct⟩ := small_known hA
    have hall : ∀ k, Small [k] → A.oidText oid = A.oidText k := by
      intro k hk
      have hpasses := (halike k [] hk).mpr (by simp [hempty])
      simpa using hpasses oid hoid
    exact absurd ((hall _ hrsa).symm.trans (hall _ hec)) hdistinct
  · obtain ⟨a, ha, htext⟩ := List.mem_map.mp (halike.texts hsmall hempty oid hoid)
    rw [halike.no_alias hsmall ha hvalid hlen htext.symm]
    exact ha

omit hsmall in
theorem SeenAlike.advertised_sub (hrequired : Small required) {oid : Bytes}
    (hoid : oid ∈ advertised) : oid ∈ required := by
  cases required with
  | nil =>
    obtain ⟨hrsa, hec, hdistinct⟩ := small_known hA
    have hall : ∀ k, Small [k] → oid = k := by
      intro k hk
      have hpasses := (halike k [] hk).mp (by simp)
      simpa using hpasses oid hoid
    exact absurd (by rw [← hall _ hrsa, ← hall _ hec]) hdistinct
  | cons algorithm rest =>
    have hpasses := (halike algorithm rest hrequired).mp fun x hx => List.mem_map_of_mem hx
    exact hpasses oid hoid

theorem SeenAlike.short {oid : Bytes} (hoid : oid ∈ advertised) (hlen : oid.length < 2000) :
    (A.i2tObject oid).length < estMaxAttrLen - 1 := by
  by_contra hlong
  obtain ⟨b, hvalid, hne, hblen, htext⟩ :=
    exists_same_oidText hA (hsmall.valid oid hoid) (by omega)
  exact hne (halike.no_alias hsmall hoid hvalid (by omega) htext)

end Agreement

section Exact

variable (C : Crypto) (A : Asn1Ops) (ctx : EstCtx) (peerCert : Option X509)
  (pathSeg : Option Bytes)

/-- A request passes the check exactly if it has everything that the server
advertises for the path segment, the challenge password aside. -/
def EnforcesAdvertised : Prop :=
  ∀ csr body, CsrBody C csr body →
    (estServerAllCsrattrsPresent C A ctx body peerCert = .none ↔
      ∀ oid, Advertised C A ctx peerCert pathSeg oid → oid ≠ oidChallengePassword →
        oid ∈ csr.oids)

/-- The server has no list at all, or a list without a path segment that is not
too long, lists what it has for the path segment and has short texts. -/
def SameList : Prop :=
  (ctx.serverCsrattrs = none ∧ ctx.estGetCsrCb = none) ∨
  ∃ required, Reads C (configuredAttrs ctx peerCert none) required ∧
    required.encode.length ≤ maxCsrattrs ∧
    (∀ oid, oid ≠ oidChallengePassword → (oid ∈ required.listed ↔
      ∃ offered, Offers C ctx peerCert pathSeg offered ∧ oid ∈ offered.oids)) ∧
    ∀ oid ∈ required.listed, oid ≠ oidChallengePassword →
      (A.i2tObject oid).length < estMaxAttrLen - 1

variable {C A ctx peerCert pathSeg} (hA : A.Lawful) (hread : ReadsBack C.bioRead)
  (hlists : ListsDocumented C A ctx peerCert)
include hA hread hlists

theorem configuredAttrs_documented :
    (configuredAttrs ctx peerCert pathSeg).len = 0 ∨
      ∃ list, Reads C (configuredAttrs ctx peerCert pathSeg) list := by
  unfold configuredAttrs
  cases hcb : ctx.estGetCsrCb with
  | some cb => exact hlists.callback cb hcb pathSeg
  | none =>
    cases hattrs : ctx.serverCsrattrs with
    | none => exact Or.inl rfl
    | some text =>
      obtain ⟨list, hlist, -⟩ := (hlists.configured text hattrs).reads hA hread
      exact Or.inr ⟨list, hlist⟩

/-- A list that is offered is small. -/
theorem Offers.length_le {list : AttrList} (h : Offers C ctx peerCert pathSeg list) :
    list.encode.length ≤ 1037 := by
  obtain ⟨hreads, hlimit⟩ := h
  cases hcb : ctx.estGetCsrCb with
  | some cb =>
    have hfits := hlimit (by rw [hcb]; rfl)
    have hmax := list.limit_le
    unfold maxCsrattrsWithpop at hmax
    omega
  | none =>
    cases hattrs : ctx.serverCsrattrs with
    | none =>
      obtain ⟨text, hdata, -⟩ := hreads
      simp [configuredAttrs, hcb, hattrs] at hdata
    | some text =>
      obtain ⟨kept, hkept, hlen⟩ := (hlists.configured text hattrs).reads hA hread
      simp only [configuredAttrs, hcb, hattrs] at hreads
      rw [hreads.unique hkept]
      exact hlen

/-- The offered identifiers, the challenge password aside, as a list. -/
theorem exists_offeredOids : ∃ oids, Small oids ∧ (oids.length ≤ 1037 ∧
    ∀ oid ∈ oids, oid.length ≤ 1037) ∧
    ∀ oid, oid ∈ oids ↔ oid ≠ oidChallengePassword ∧
      ∃ offered, Offers C ctx peerCert pathSeg offered ∧ oid ∈ offered.oids := by
  by_cases hoffer : ∃ offered, Offers C ctx peerCert pathSeg offered
  · obtain ⟨offered, hoffered⟩ := hoffer
    obtain ⟨hsmall, hbounds⟩ := small_of_sublist (hoffered.length_le hA hread hlists)
      (List.filter_sublist (p := (· ≠ oidChallengePassword)))
    refine ⟨offered.oids.filter (· ≠ oidChallengePassword), hsmall, hbounds, ?_⟩
    intro oid
    simp only [List.mem_filter, decide_eq_true_eq]
    constructor
    · rintro ⟨hmem, hne⟩
      exact ⟨hne, offered, hoffered, hmem⟩
    · rintro ⟨hne, other, hother, hmem⟩
      rw [hother.1.unique hoffered.1] at hmem
      exact ⟨hmem, hne⟩
  · refine ⟨[], ⟨by decide, by simp, by simp⟩, ⟨by decide, by simp⟩, ?_⟩
    intro oid
    simp only [List.not_mem_nil, false_iff]
    rintro ⟨-, offered, hoffered, -⟩
    exact hoffer ⟨offered, hoffered⟩

omit hA hread hlists in
theorem Reads.not_none {list : AttrList} (h : Reads C (configuredAttrs ctx peerCert pathSeg) list) :
    ¬ (ctx.serverCsrattrs = none ∧ ctx.estGetCsrCb = none) := by
  rintro ⟨hattrs, hcb⟩
  obtain ⟨text, hdata, -⟩ := h
  simp [configuredAttrs, hcb, hattrs] at hdata

/-- The condition is enough. -/
theorem SameList.enforces (h : SameList C A ctx peerCert pathSeg) :
    EnforcesAdvertised C A ctx peerCert pathSeg := by
  intro csr body hbody
  rw [accepted_iff hA hbody (configuredAttrs_documented hA hread hlists)]
  rcases h with hnone | ⟨required, hreads, hlen, hsame, hshort⟩
  · simp only [hnone, and_self, true_or, true_iff]
    intro oid hadvertised hoid
    obtain ⟨list, ⟨⟨text, hdata, -⟩, -⟩, -⟩ :=
      (advertised_iff hread hoid hA hlists).mp hadvertised
    simp [configuredAttrs, hnone] at hdata
  · have hsatisfied : ∀ oid ∈ required.listed, oid ≠ oidChallengePassword →
        (Satisfied A (csr.oids.map A.oidText) oid ↔ oid ∈ csr.oids) := by
      intro oid hlisted hoid
      rw [Satisfied, or_iff_right hoid]
      constructor
      · intro htext
        obtain ⟨other, hother, hsame⟩ := List.mem_map.mp htext
        rw [oidText_injective hA (AttrList.valid (AttrList.mem_oids_of_mem_listed hlisted))
          (hbody.wellFormed.valid hother) (hshort oid hlisted hoid) hsame.symm]
        exact hother
      · exact List.mem_map_of_mem
    rw [or_iff_right hreads.not_none]
    constructor
    · rintro ⟨list, hlist, -, hall⟩ oid hadvertised hoid
      rw [hlist.unique hreads] at hall
      have hlisted := (hsame oid hoid).mpr ((advertised_iff hread hoid hA hlists).mp hadvertised)
      exact (hsatisfied oid hlisted hoid).mp (hall oid hlisted)
    · intro hall
      refine ⟨required, hreads, hlen, ?_⟩
      intro oid hlisted
      by_cases hoid : oid = oidChallengePassword
      · exact Or.inl hoid
      · apply (hsatisfied oid hlisted hoid).mpr
        exact hall oid ((advertised_iff hread hoid hA hlists).mpr ((hsame oid hoid).mp hlisted)) hoid

/-- What the property says of a request that is built for the purpose. -/
theorem EnforcesAdvertised.built (h : EnforcesAdvertised C A ctx peerCert pathSeg)
    {algorithm : Bytes} {oids : List Bytes} (hfit : Small (algorithm :: oids)) :
    ((ctx.serverCsrattrs = none ∧ ctx.estGetCsrCb = none) ∨
      ∃ list, Reads C (configuredAttrs ctx peerCert none) list ∧
        list.encode.length ≤ maxCsrattrs ∧
        ∀ oid ∈ list.listed, Satisfied A ((algorithm :: oids).map A.oidText) oid) ↔
      ∀ oid, oid ≠ oidChallengePassword →
        (∃ offered, Offers C ctx peerCert pathSeg offered ∧ oid ∈ offered.oids) →
        oid ∈ algorithm :: oids := by
  have hbody := requestFor_body hread hfit
  have hoids : ∀ oid, oid ∈ (requestFor algorithm oids).oids ↔ oid ∈ algorithm :: oids := by
    intro oid
    rw [requestFor_oids]
    simp only [List.cons_append, List.mem_cons, List.mem_append, List.not_mem_nil, or_false]
    tauto
  have hsatisfied : ∀ oid, Satisfied A ((requestFor algorithm oids).oids.map A.oidText) oid ↔
      Satisfied A ((algorithm :: oids).map A.oidText) oid := by
    intro oid
    simp only [Satisfied, List.mem_map, hoids]
  have hdocumented : (configuredAttrs ctx peerCert none).len = 0 ∨ ∃ list, _ :=
    configuredAttrs_documented hA hread hlists
  have haccepted := accepted_iff hA hbody hdocumented
  simp only [hsatisfied] at haccepted
  rw [← haccepted, h _ _ hbody]
  constructor
  · intro hall oid hoid hoffered
    exact (hoids oid).mp (hall oid ((advertised_iff hread hoid hA hlists).mpr hoffered) hoid)
  · intro hall oid hsent hoid
    exact (hoids oid).mpr (hall oid hoid ((advertised_iff hread hoid hA hlists).mp hsent))

/-- The condition is needed. -/
theorem EnforcesAdvertised.sameList (h : EnforcesAdvertised C A ctx peerCert pathSeg) :
    SameList C A ctx peerCert pathSeg := by
  obtain ⟨advertised, hsmall, ⟨hcount, hlength⟩, hmem⟩ : ∃ oids, _ ∧ _ ∧ ∀ oid, oid ∈ oids ↔
      oid ≠ oidChallengePassword ∧ ∃ offered, Offers C ctx peerCert pathSeg offered ∧
        oid ∈ offered.oids := exists_offeredOids hA hread hlists
  -- a request with all that is advertised passes, so that there is a list to check against
  have hfull : Small (oidRsaEncryption :: advertised) := by
    refine ⟨by rw [List.length_cons]; omega, ?_, ?_⟩
    · exact List.forall_mem_cons.mpr ⟨by decide, hsmall.length⟩
    · exact List.forall_mem_cons.mpr ⟨by decide, hsmall.valid⟩
  rcases (h.built hA hread hlists hfull).mpr fun oid hoid hoffered =>
    List.mem_cons_of_mem _ ((hmem oid).mpr ⟨hoid, hoffered⟩) with hnone | ⟨required, hreads, hlen, -⟩
  · exact Or.inl hnone
  have halike : SeenAlike A (required.listed.filter (· ≠ oidChallengePassword)) advertised := by
    intro algorithm oids hfit
    have hbuilt := h.built hA hread hlists hfit
    rw [or_iff_right hreads.not_none] at hbuilt
    constructor
    · intro htexts oid hoid
      obtain ⟨hne, hoffered⟩ := (hmem oid).mp hoid
      refine hbuilt.mp ⟨required, hreads, hlen, ?_⟩ oid hne hoffered
      intro listed hlisted
      by_cases hpop : listed = oidChallengePassword
      · exact Or.inl hpop
      · exact Or.inr (htexts listed (List.mem_filter.mpr ⟨hlisted, by simpa using hpop⟩))
    · intro hall oid hoid
      obtain ⟨list, hlist, -, hpasses⟩ := hbuilt.mpr fun oid hne hoffered =>
        hall oid ((hmem oid).mpr ⟨hne, hoffered⟩)
      rw [hlist.unique hreads] at hpasses
      obtain ⟨hlisted, hne⟩ := List.mem_filter.mp hoid
      exact (hpasses oid hlisted).resolve_left (by simpa using hne)
  unfold maxCsrattrs at hlen
  obtain ⟨hrequired, -, hrequiredLength⟩ := small_of_sublist (show _ ≤ 1037 by omega)
    ((List.filter_sublist (p := (· ≠ oidChallengePassword))).trans
      (Values.listed_sublist_oids required.values))
  refine Or.inr ⟨required, hreads, hlen, ?_, ?_⟩
  · intro oid hoid
    constructor
    · intro hlisted
      have hfiltered : oid ∈ required.listed.filter (· ≠ oidChallengePassword) :=
        List.mem_filter.mpr ⟨hlisted, by simpa using hoid⟩
      have hfit := hrequiredLength oid hfiltered
      exact ((hmem oid).mp (halike.required_sub hA hsmall hfiltered
        (hrequired.valid oid hfiltered) (by omega))).2
    · intro hoffered
      exact (List.mem_filter.mp (halike.advertised_sub hA hrequired
        ((hmem oid).mpr ⟨hoid, hoffered⟩))).1
  · intro oid hlisted hoid
    have hfiltered : oid ∈ required.listed.filter (· ≠ oidChallengePassword) :=
      List.mem_filter.mpr ⟨hlisted, by simpa using hoid⟩
    have hfit := hrequiredLength oid hfiltered
    exact halike.short hA hsmall (halike.required_sub hA hsmall hfiltered
      (hrequired.valid oid hfiltered) (by omega)) (by omega)

end Exact

section Instances

open LibEst.Server.Reference

/-- The list of a single identifier. -/
def listOf (oid : Bytes) (hvalid : oidValid oid = true) (hlen : oid.length ≤ 2000) : AttrList where
  values := object oid .nil
  wellFormed := (bounded_sequence (by decide) (bounded_object hvalid hlen bounded_nil)
    bounded_nil).wellFormed
  plain := ⟨fun _ => rfl, by decide, by decide, trivial⟩

def ecList : AttrList := listOf oidEcPublicKey (by decide) (by decide)

def rsaList : AttrList := listOf oidRsaEncryption (by decide) (by decide)

def textOf (list : AttrList) : CsrAttrs where
  data := some (base64Text false list.encode)
  len := (base64Text false list.encode).length

/-- A server that enforces the attributes of its callback. -/
def attrsCtx (cb : Option Bytes → Option X509 → CsrAttrs) : EstCtx :=
  { authCtx with enforceCsrattrs := true, estGetCsrCb := some cb }

/-- The tenants of the server have RSA keys; elsewhere keys are on curves. -/
def perTenant (pathSeg : Option Bytes) (_ : Option X509) : CsrAttrs :=
  match pathSeg with
  | some _ => textOf rsaList
  | none => textOf ecList

theorem textOf_reads (list : AttrList) : Reads hostCrypto (textOf list) list :=
  reads_base64Text readBase64_readsBack list

theorem attrsCtx_documented {cb : Option Bytes → Option X509 → CsrAttrs} {peerCert : Option X509}
    (h : ∀ pathSeg, ∃ list, cb pathSeg peerCert = textOf list) :
    ListsDocumented hostCrypto hostAsn1 (attrsCtx cb) peerCert where
  callback := by
    intro other hother pathSeg
    cases hother
    obtain ⟨list, hlist⟩ := h pathSeg
    rw [hlist]
    exact Or.inr ⟨list, textOf_reads list⟩
  configured := by
    intro text htext
    cases htext

end Instances

end LibEst.Server.CsrAttrs
