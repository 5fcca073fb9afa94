import LibEst.Server.AttrList

/-! The list that is sent and the list that is enforced. A client may fulfil
what it was told and be turned away, or the other way round, because the check
asks the callback without the path segment, reads at most 1024 bytes, skips
values of other types and compares texts in a buffer. -/
namespace LibEst.Server.CsrAttrs

open LibEst.Basic LibEst.OpenSsl LibEst.Base64 LibEst.Lib.ByteString LibEst.Lib.Der
open LibEst.Asn1 LibEst.Server.Context

/-- The text of a list, with its length. -/
def Reads (C : Crypto) (answer : CsrAttrs) (list : AttrList) : Prop :=
  ∃ text, answer.data = some text ∧ answer.len = text.length ∧
    estBase64Decode C.bioRead text (text.length * 2) = list.encode

/-- The list that the server has for a path segment. -/
def configuredAttrs (ctx : EstCtx) (peerCert : Option X509) (pathSeg : Option Bytes) : CsrAttrs :=
  match ctx.estGetCsrCb, ctx.serverCsrattrs with
  | some cb, _ => cb pathSeg peerCert
  | none, some text => { data := some text, len := text.length }
  | none, none => { data := none, len := 0 }

section Texts

variable {C : Crypto} {A : Asn1Ops} {answer : CsrAttrs} {list other : AttrList}

theorem Reads.unique (h : Reads C answer list) (h' : Reads C answer other) : list = other := by
  obtain ⟨text, hdata, -, hdecode⟩ := h
  obtain ⟨text', hdata', -, hdecode'⟩ := h'
  rw [hdata, Option.some.injEq] at hdata'
  subst hdata'
  exact AttrList.eq_of_encode (hdecode.symm.trans hdecode')

/-- A text that was written by the library reads as its source. -/
theorem reads_base64Text (hread : ReadsBack C.bioRead) (list : AttrList) :
    Reads C { data := some (base64Text false list.encode)
              len := (base64Text false list.encode).length } list := by
  refine ⟨_, rfl, rfl, ?_⟩
  rw [Nat.mul_comm]
  exact estBase64Decode_base64Text hread list.encode_ne_nil

theorem four_le_of_decode {text : Bytes}
    (hdecode : estBase64Decode C.bioRead text (text.length * 2) = list.encode) :
    minCsrattrs ≤ text.length := by
  apply four_le_length_of_decode
  rw [hdecode]
  exact list.two_le_length

theorem Reads.pos {text : Bytes} {len : Int} (h : Reads C { data := some text, len := len } list) :
    0 < text.length := by
  obtain ⟨_, hdata, -, hdecode⟩ := h
  rw [Option.some.injEq] at hdata
  subst hdata
  exact Nat.lt_of_lt_of_le (by decide) (four_le_of_decode hdecode)

/-- The parse of a list that was read. -/
theorem estAsn1ParseAttributes_reads (hA : A.Lawful) {text : Bytes}
    (hdecode : estBase64Decode C.bioRead text (text.length * 2) = list.encode) :
    estAsn1ParseAttributes C A text text.length =
      (if list.limit < list.encode.length then .badAsn1HexTooLong else .none, list.hasPop) := by
  have hfour := four_le_of_decode hdecode
  rw [estAsn1ParseAttributes, if_neg (by omega)]
  simp only [Int.toNat_natCast, hdecode, if_neg list.encode_ne_nil]
  exact estAsn1SanityTest_list hA list

/-- The list of the challenge password alone. -/
def popList : AttrList where
  values := challengePassword
  wellFormed := ⟨⟨by decide, by decide⟩, fun _ => ⟨by decide, by decide⟩,
    challengePassword_wellFormed, trivial⟩
  plain := challengePassword_plain

theorem estCsrattrsPop_eq : estCsrattrsPop = base64Text false popList.encode := by decide

end Texts

section Advertised

variable (C : Crypto) (A : Asn1Ops)

/-- The identifiers of the list that a client gets for a path segment. -/
def Advertised (ctx : EstCtx) (peerCert : Option X509) (pathSeg : Option Bytes) (oid : Bytes) :
    Prop :=
  ∃ r text list, estHandleCsrAttrs C A ctx peerCert pathSeg = some r ∧ r.sent = some text ∧
    Reads C { data := some text, len := text.length } list ∧ oid ∈ list.oids

/-- A text that `est_server_init_csrattrs` has put into a context. -/
def Configured (text : Bytes) : Prop :=
  ∃ ctx given list, Reads C { data := some given, len := given.length } list ∧
    estServerInitCsrattrs C A ctx given = (.none, some text)

/-- The application keeps to the interface: the callback answers with nothing
or with the text of a list, and configured lists have been accepted. -/
structure ListsDocumented (ctx : EstCtx) (peerCert : Option X509) : Prop where
  callback : ∀ cb, ctx.estGetCsrCb = some cb → ∀ pathSeg,
    (cb pathSeg peerCert).len = 0 ∨ ∃ list, Reads C (cb pathSeg peerCert) list
  configured : ∀ text, ctx.serverCsrattrs = some text → Configured C A text

/-- The server has this list for the path segment and, if it comes from the
callback, it is not too long. -/
def Offers (ctx : EstCtx) (peerCert : Option X509) (pathSeg : Option Bytes) (list : AttrList) :
    Prop :=
  Reads C (configuredAttrs ctx peerCert pathSeg) list ∧
    (ctx.estGetCsrCb.isSome = true → list.encode.length ≤ list.limit)

variable {C A} {ctx : EstCtx} {peerCert : Option X509} {pathSeg : Option Bytes}

theorem deliver_sent {text : Bytes} (h : 0 < text.length) :
    (deliver ctx (some text) text.length).sent = some text := by
  unfold deliver
  split
  · simp [h]
  · simp

theorem eq_of_deliver_sent {text sent : Bytes}
    (h : (deliver ctx (some text) text.length).sent = some sent) : sent = text := by
  unfold deliver at h
  split at h
  · simp only [Option.map_some, Int.toNat_natCast, List.take_length] at h
    split at h
    · exact (Option.some.inj h).symm
    · cases h
  · simpa using h.symm

theorem AttrList.limit_le (list : AttrList) : list.limit ≤ maxCsrattrsWithpop := by
  unfold AttrList.limit
  split <;> decide

theorem AttrList.limit_of_no_pop {list : AttrList} (h : list.hasPop = false) :
    list.limit = maxCsrattrs := by
  rw [AttrList.limit, h]
  rfl

section Callback

variable (ctx) (hA : A.Lawful) {answer : CsrAttrs} {list : AttrList}
include hA

theorem callbackAttrs_too_long (h : Reads C answer list)
    (hlong : list.limit < list.encode.length) :
    ∃ r, callbackAttrs C A ctx answer = some r ∧ r.sent = none := by
  obtain ⟨text, hdata, hlen, hdecode⟩ := h
  have hfour := four_le_of_decode hdecode
  have hparse := estAsn1ParseAttributes_reads hA hdecode
  rw [if_pos hlong] at hparse
  refine ⟨{ rc := .badAsn1HexTooLong, sent := none }, ?_, rfl⟩
  simp only [callbackAttrs, hdata, hlen, hparse]
  rw [if_pos]
  unfold minCsrattrs at hfour
  exact ⟨by omega, by decide⟩

/-- A list that fits is sent as it is, or with the challenge password. -/
theorem callbackAttrs_sent (h : Reads C answer list) (hfits : list.encode.length ≤ list.limit)
    (hread : ReadsBack C.bioRead) :
    ∃ r text sent, callbackAttrs C A ctx answer = some r ∧ r.sent = some text ∧
      Reads C { data := some text, len := text.length } sent ∧
      (sent.oids = list.oids ∨ sent.oids = list.oids ++ [oidChallengePassword]) := by
  obtain ⟨text, hdata, hlen, hdecode⟩ := h
  have hfour := four_le_of_decode hdecode
  unfold minCsrattrs at hfour
  have hparse := estAsn1ParseAttributes_reads hA hdecode
  rw [if_neg (by omega)] at hparse
  have hpresent : estIsChallengePasswordPresent C A text text.length = (.none, list.hasPop) := by
    rw [estIsChallengePasswordPresent, if_neg (by omega), hparse]
  simp only [callbackAttrs, hdata, hlen, hparse, hpresent]
  rw [if_neg (by simp)]
  by_cases hadd : ctx.serverEnablePop = true ∧ list.hasPop = false
  · have hshort : list.encode.length ≤ maxCsrattrs := by
      rw [← AttrList.limit_of_no_pop hadd.2]
      exact hfits
    have hpop : estAddChallengePassword C A text text.length = _ :=
      estAddChallengePassword_list hA (by rw [Int.toNat_natCast]; exact hdecode) hshort
    have hreads := reads_base64Text hread (list.withPop hshort)
    refine ⟨deliver ctx (some (base64Text false (list.withPop hshort).encode))
      (base64Text false (list.withPop hshort).encode).length, _, list.withPop hshort, ?_,
      deliver_sent hreads.pos, hreads, Or.inr (list.withPop_oids hshort)⟩
    simp [hadd, hpop, show text ≠ [] from List.ne_nil_of_length_pos (by omega)]
  · refine ⟨deliver ctx (some text) text.length, text, list, ?_, deliver_sent (by omega),
      ⟨text, rfl, rfl, hdecode⟩, Or.inl rfl⟩
    cases hpopMode : ctx.serverEnablePop with
    | false => simp
    | true =>
      have hpresent : list.hasPop = true := by
        by_contra hno
        exact hadd ⟨hpopMode, Bool.eq_false_iff.mpr hno⟩
      simp [hpresent]

end Callback

section NoList

variable (hread : ReadsBack C.bioRead) {list : AttrList}

theorem deliver_zero {data : Option Bytes} {text : Bytes}
    (hsent : (deliver ctx data 0).sent = some text)
    (hlist : Reads C { data := some text, len := text.length } list) : False := by
  have hpos := hlist.pos
  unfold deliver at hsent
  split at hsent
  · cases hsent
  · cases data with
    | none => cases hsent
    | some given =>
      simp only [Int.toNat_zero, List.take_zero, Option.map_some, Option.some.injEq] at hsent
      rw [← hsent] at hpos
      cases hpos

include hread

/-- The text for a server that only wants the challenge password. -/
theorem deliver_pop {text : Bytes}
    (hsent : (deliver ctx (some estCsrattrsPop) estCsrattrsPop.length).sent = some text)
    (hlist : Reads C { data := some text, len := text.length } list) :
    list.oids = [oidChallengePassword] := by
  rw [deliver_sent (by decide), Option.some.injEq] at hsent
  subst hsent
  have hpop := reads_base64Text hread popList
  rw [← estCsrattrsPop_eq] at hpop
  rw [hlist.unique hpop]
  decide

/-- A callback without a list advertises nothing but the challenge password. -/
theorem callbackAttrs_empty {answer : CsrAttrs} (hempty : answer.len = 0) {r : AttrsResponse}
    {text : Bytes} (hr : callbackAttrs C A ctx answer = some r) (hsent : r.sent = some text)
    (hlist : Reads C { data := some text, len := text.length } list) :
    list.oids = [oidChallengePassword] := by
  unfold callbackAttrs at hr
  rw [hempty] at hr
  cases hdata : answer.data with
  | none =>
    simp only [hdata, minCsrattrs, ne_eq, not_true_eq_false, if_false] at hr
    rw [if_neg (by decide)] at hr
    split at hr
    · rw [Option.some.injEq] at hr
      subst hr
      exact deliver_pop hread hsent hlist
    · rw [Option.some.injEq] at hr
      subst hr
      exact (deliver_zero hsent hlist).elim
  | some given =>
    simp only [hdata, ne_eq, not_true_eq_false, false_and, if_false,
      estIsChallengePasswordPresent, if_true, Bool.false_eq_true] at hr
    split at hr
    · rw [Option.some.injEq] at hr
      subst hr
      exact deliver_pop hread hsent hlist
    · rw [Option.some.injEq] at hr
      subst hr
      exact (deliver_zero hsent hlist).elim

end NoList

/-- What `est_server_init_csrattrs` keeps is the text of a list. -/
theorem Configured.reads (hA : A.Lawful) (hread : ReadsBack C.bioRead) {text : Bytes}
    (h : Configured C A text) :
    ∃ list, Reads C { data := some text, len := text.length } list ∧
      list.encode.length ≤ 1037 := by
  obtain ⟨ctx, given, list, hgiven, hinit⟩ := h
  obtain ⟨_, hsame, -, hdecode⟩ := hgiven
  rw [Option.some.injEq] at hsame
  subst hsame
  have hfour := four_le_of_decode hdecode
  have hparse := estAsn1ParseAttributes_reads hA hdecode
  have hlimit := list.limit_le
  unfold minCsrattrs at hfour
  unfold maxCsrattrsWithpop at hlimit
  have hpresent : estIsChallengePasswordPresent C A given given.length =
      estAsn1ParseAttributes C A given given.length := by
    rw [estIsChallengePasswordPresent, if_neg (by omega)]
  simp only [estServerInitCsrattrs, hpresent, hparse] at hinit
  by_cases hlong : list.limit < list.encode.length
  · simp only [if_pos hlong, reduceCtorEq, not_false_eq_true, ne_eq, if_true] at hinit
    repeat' split at hinit
    all_goals simp at hinit
  · simp only [if_neg hlong, ne_eq, not_true_eq_false, if_false] at hinit
    have hasGiven : given = text → ∃ list, Reads C { data := some text, len := text.length } list ∧
        list.encode.length ≤ 1037 := by
      rintro rfl
      exact ⟨list, ⟨given, rfl, rfl, hdecode⟩, by omega⟩
    split at hinit
    · cases hinit
    · split at hinit
      · cases hinit
      · split at hinit
        · split at hinit
          · exact hasGiven (by simpa using hinit)
          · rename_i hpop
            have hshort : list.encode.length ≤ maxCsrattrs := by
              rw [← AttrList.limit_of_no_pop (Bool.eq_false_iff.mpr hpop)]
              omega
            have hadd : estAddChallengePassword C A given given.length = _ :=
              estAddChallengePassword_list hA (by rw [Int.toNat_natCast]; exact hdecode) hshort
            simp only [hadd, not_true_eq_false, if_false, Prod.mk.injEq, Option.some.injEq,
              true_and] at hinit
            subst hinit
            exact ⟨list.withPop hshort, reads_base64Text hread _, list.withPop_length_le hshort⟩
        · exact hasGiven (by simpa using hinit)

section Offered

variable (hA : A.Lawful) (hread : ReadsBack C.bioRead) {oid : Bytes}
  (hoid : oid ≠ oidChallengePassword)
include hread hoid

theorem advertised_empty_iff {cb : Option Bytes → Option X509 → CsrAttrs}
    (hcb : ctx.estGetCsrCb = some cb) (hempty : (cb pathSeg peerCert).len = 0) :
    Advertised C A ctx peerCert pathSeg oid ↔
      ∃ list, Offers C ctx peerCert pathSeg list ∧ oid ∈ list.oids := by
  constructor
  · rintro ⟨r, text, list, hr, hsent, hlist, hmem⟩
    simp only [estHandleCsrAttrs, hcb] at hr
    rw [callbackAttrs_empty hread hempty hr hsent hlist, List.mem_singleton] at hmem
    exact absurd hmem hoid
  · rintro ⟨list, ⟨⟨text, -, hlen, hdecode⟩, -⟩, -⟩
    have hfour := four_le_of_decode hdecode
    unfold minCsrattrs at hfour
    simp only [configuredAttrs, hcb] at hlen
    omega

include hA in
theorem advertised_list_iff {cb : Option Bytes → Option X509 → CsrAttrs} {given : AttrList}
    (hcb : ctx.estGetCsrCb = some cb) (hgiven : Reads C (cb pathSeg peerCert) given) :
    Advertised C A ctx peerCert pathSeg oid ↔
      ∃ list, Offers C ctx peerCert pathSeg list ∧ oid ∈ list.oids := by
  have hhandle : estHandleCsrAttrs C A ctx peerCert pathSeg =
      callbackAttrs C A ctx (cb pathSeg peerCert) := by
    simp [estHandleCsrAttrs, hcb]
  have hconfigured : configuredAttrs ctx peerCert pathSeg = cb pathSeg peerCert := by
    simp [configuredAttrs, hcb]
  unfold Advertised Offers
  rw [hhandle, hconfigured, hcb]
  by_cases hfits : given.encode.length ≤ given.limit
  · obtain ⟨r, text, sent, hr, hsent, hreads, hoids⟩ := callbackAttrs_sent ctx hA hgiven hfits hread
    have hsame : oid ∈ sent.oids ↔ oid ∈ given.oids := by
      rcases hoids with hoids | hoids
      · rw [hoids]
      · rw [hoids, List.mem_append, List.mem_singleton, or_iff_left hoid]
    constructor
    · rintro ⟨r', text', list, hr', hsent', hlist, hmem⟩
      rw [hr, Option.some.injEq] at hr'
      subst hr'
      rw [hsent, Option.some.injEq] at hsent'
      subst hsent'
      rw [hlist.unique hreads] at hmem
      exact ⟨given, ⟨hgiven, fun _ => hfits⟩, hsame.mp hmem⟩
    · rintro ⟨list, ⟨hlist, -⟩, hmem⟩
      rw [hlist.unique hgiven] at hmem
      exact ⟨r, text, sent, hr, hsent, hreads, hsame.mpr hmem⟩
  · obtain ⟨r, hr, hnone⟩ := callbackAttrs_too_long ctx hA hgiven (by omega)
    constructor
    · rintro ⟨r', text, list, hr', hsent, -⟩
      rw [hr, Option.some.injEq] at hr'
      subst hr'
      rw [hnone] at hsent
      cases hsent
    · rintro ⟨list, ⟨hlist, hlimit⟩, -⟩
      rw [hlist.unique hgiven] at hlimit
      exact absurd (hlimit rfl) hfits

theorem advertised_configured_iff (hcb : ctx.estGetCsrCb = none) :
    Advertised C A ctx peerCert pathSeg oid ↔
      ∃ list, Offers C ctx peerCert pathSeg list ∧ oid ∈ list.oids := by
  unfold Advertised Offers configuredAttrs estHandleCsrAttrs
  cases hattrs : ctx.serverCsrattrs with
  | some text =>
    simp only [hcb, Option.isSome_none, Bool.false_eq_true, false_imp_iff, and_true,
      Option.some.injEq]
    constructor
    · rintro ⟨r, sent, list, rfl, hsent, hlist, hmem⟩
      rw [eq_of_deliver_sent hsent] at hlist
      exact ⟨list, hlist, hmem⟩
    · rintro ⟨list, hlist, hmem⟩
      exact ⟨_, text, list, rfl, deliver_sent hlist.pos, hlist, hmem⟩
  | none =>
    simp only [hcb]
    constructor
    · rintro ⟨r, text, list, hr, hsent, hlist, hmem⟩
      split at hr
      · rw [Option.some.injEq] at hr
        subst hr
        rw [deliver_pop hread hsent hlist, List.mem_singleton] at hmem
        exact absurd hmem hoid
      · rw [Option.some.injEq] at hr
        subst hr
        cases hsent
    · rintro ⟨list, ⟨⟨text, hdata, -⟩, -⟩, -⟩
      cases hdata

/-- What is advertised, apart from the challenge password, is what is offered. -/
theorem advertised_iff (hA : A.Lawful) (hlists : ListsDocumented C A ctx peerCert) :
    Advertised C A ctx peerCert pathSeg oid ↔
      ∃ list, Offers C ctx peerCert pathSeg list ∧ oid ∈ list.oids := by
  cases hcb : ctx.estGetCsrCb with
  | none => exact advertised_configured_iff hread hoid hcb
  | some cb =>
    rcases hlists.callback cb hcb pathSeg with hempty | ⟨given, hgiven⟩
    · exact advertised_empty_iff hread hoid hcb hempty
    · exact advertised_list_iff hA hread hoid hcb hgiven

end Offered

end Advertised

section Requests

def sequence (content rest : Values) : Values := .cons (universal tagSequence) content rest

def object (oid : Bytes) (rest : Values) : Values := .prim (universal tagObject) oid rest

/-- A certification request as PKCS #10 lays it out. -/
structure Pkcs10 where
  version : Bytes
  subject : Values
  keyAlgorithm : Bytes
  keyParameters : Values
  key : Bytes
  attributes : Values
  signatureAlgorithm : Bytes
  signatureParameters : Values
  signature : Bytes

def Pkcs10.tree (csr : Pkcs10) : Values :=
  sequence
    (sequence
      (.prim (universal tagInteger) csr.version
        (sequence csr.subject
          (sequence
            (sequence (object csr.keyAlgorithm csr.keyParameters)
              (.prim (universal tagBitString) csr.key .nil))
            (.cons { cls := 2, tag := 0 } csr.attributes .nil))))
      (sequence (object csr.signatureAlgorithm csr.signatureParameters)
        (.prim (universal tagBitString) csr.signature .nil)))
    .nil

def Pkcs10.oids (csr : Pkcs10) : List Bytes := csr.tree.oids

/-- The body of a request whose text decodes to this certification request. -/
structure CsrBody (C : Crypto) (csr : Pkcs10) (body : Bytes) : Prop where
  wellFormed : csr.tree.WellFormed
  decodes : estBase64Decode C.bioRead body (body.length * 2) = csr.tree.encode

variable {C : Crypto} {A : Asn1Ops} (hA : A.Lawful)
include hA

/-- The identifiers that the check finds in a request. -/
theorem estServerBuildCsrOidList_body {csr : Pkcs10} {body : Bytes} (h : CsrBody C csr body) :
    estServerBuildCsrOidList C A body = (.none, csr.oids.map A.oidText) := by
  have hne : csr.tree.encode ≠ [] := Values.encode_ne_nil_of_cons _ _ _
  have hrounds := requestRounds_le csr.tree
  have hwalk := csrAsn1Loop_encode hA csr.tree h.wellFormed csr.tree.encode []
    (2 * csr.tree.encode.length + 2) (by omega) csr.tree.encode.length (-1) 0
    csr.tree.encode.length [] (by simp) (by decide) (by simp) rfl
  unfold estServerBuildCsrOidList estServerCsrAsn1Parse
  simp only [h.decodes, if_neg hne, hwalk]
  simp [Pkcs10.oids]

omit hA in
theorem enforceAttrs_empty {answer : CsrAttrs} (hempty : answer.len = 0) (csrOids : List Bytes) :
    enforceAttrs C A answer csrOids ≠ .none := by
  unfold enforceAttrs
  split
  · decide
  · rw [hempty, if_pos (by decide)]
    decide

theorem enforceAttrs_reads {answer : CsrAttrs} {list : AttrList} (h : Reads C answer list)
    (csrOids : List Bytes) :
    enforceAttrs C A answer csrOids = .none ↔
      list.encode.length ≤ maxCsrattrs ∧ ∀ oid ∈ list.listed, Satisfied A csrOids oid := by
  obtain ⟨text, hdata, hlen, hdecode⟩ := h
  have hfour := four_le_of_decode hdecode
  have htwo := list.two_le_length
  simp only [enforceAttrs, hdata, hlen, Int.toNat_natCast, hdecode]
  rw [if_neg (by omega), if_neg list.encode_ne_nil]
  by_cases hlong : list.encode.length > maxCsrattrs
  · rw [if_pos hlong]
    simp only [reduceCtorEq, false_iff]
    omega
  · rw [if_neg hlong, if_neg (by unfold minAsn1Csrattrs; omega), enforceLoop_list hA]
    by_cases hall : ∀ oid ∈ list.listed, Satisfied A csrOids oid
    · simp only [if_pos hall, true_iff]
      exact ⟨by omega, hall⟩
    · simp only [if_neg hall, reduceCtorEq, false_iff]
      exact fun h => hall h.2

/-- When a request passes the check. -/
theorem accepted_iff {ctx : EstCtx} {peerCert : Option X509} {csr : Pkcs10} {body : Bytes}
    (h : CsrBody C csr body)
    (hlists : (configuredAttrs ctx peerCert none).len = 0 ∨
      ∃ list, Reads C (configuredAttrs ctx peerCert none) list) :
    estServerAllCsrattrsPresent C A ctx body peerCert = .none ↔
      (ctx.serverCsrattrs = none ∧ ctx.estGetCsrCb = none) ∨
      ∃ list, Reads C (configuredAttrs ctx peerCert none) list ∧
        list.encode.length ≤ maxCsrattrs ∧
        ∀ oid ∈ list.listed, Satisfied A (csr.oids.map A.oidText) oid := by
  have hrequired : requiredAttrs ctx peerCert = configuredAttrs ctx peerCert none := rfl
  unfold estServerAllCsrattrsPresent
  by_cases hno : ctx.serverCsrattrs.isNone ∧ ctx.estGetCsrCb.isNone
  · simp only [if_pos hno, true_iff]
    exact Or.inl ⟨Option.isNone_iff_eq_none.mp hno.1, Option.isNone_iff_eq_none.mp hno.2⟩
  · have hsome : ¬ (ctx.serverCsrattrs = none ∧ ctx.estGetCsrCb = none) := by
      simpa using hno
    simp only [if_neg hno, estServerBuildCsrOidList_body hA h, ne_eq, not_true_eq_false, if_false,
      hrequired, or_iff_right hsome]
    rcases hlists with hempty | ⟨list, hlist⟩
    · simp only [enforceAttrs_empty hempty, false_iff]
      rintro ⟨list, ⟨text, -, hlen, hdecode⟩, -⟩
      have hfour := four_le_of_decode hdecode
      unfold minCsrattrs at hfour
      omega
    · rw [enforceAttrs_reads hA hlist]
      constructor
      · intro hpass
        exact ⟨list, hlist, hpass⟩
      · rintro ⟨other, hother, hpass⟩
        rw [hlist.unique hother]
        exact hpass

end Requests

end LibEst.Server.CsrAttrs
