import LibEst.Lib.Machine
import LibEst.Server.CsrAttrsEnforcement
import LibEst.Server.PopAdded
import LibEst.Server.TlsUid

/-! Proof of possession as the server announces it and as it asks for it. The
switch and the list are set by separate calls in any order; a list keeps the
challenge password that it had when it was set. -/
namespace LibEst.Server.Pop

open LibEst.Basic LibEst.OpenSsl LibEst.Base64 LibEst.Lib.ByteString LibEst.Lib.Der
open LibEst.Lib.Machine LibEst.Asn1
open LibEst.Server.Context LibEst.Server.CsrAttrs LibEst.Server.TlsUid LibEst.Server.Reference

inductive PopCall where
  | enablePop
  | disablePop
  | initCsrattrs (csrattrs : Option Bytes)
  deriving DecidableEq

def estServerEnablePop (ctx : EstCtx) : EstError × EstCtx :=
  (.none, { ctx with serverEnablePop := true })

def estServerDisablePop (ctx : EstCtx) : EstError × EstCtx :=
  (.none, { ctx with serverEnablePop := false })

variable (C : Crypto) (A : Asn1Ops)

/-- `est_server_init_csrattrs`; a null text clears the list. -/
def initCsrattrs (ctx : EstCtx) (csrattrs : Option Bytes) : EstError × EstCtx :=
  match csrattrs with
  | none =>
      if ctx.estMode ≠ .server then (.badMode, ctx)
      else (.none, { ctx with serverCsrattrs := none })
  | some text =>
      let (rv, kept) := estServerInitCsrattrs C A ctx text
      (rv, { ctx with serverCsrattrs := kept })

def popCall (ctx : EstCtx) : PopCall → EstError × EstCtx
  | .enablePop => estServerEnablePop ctx
  | .disablePop => estServerDisablePop ctx
  | .initCsrattrs csrattrs => initCsrattrs C A ctx csrattrs

def popStep (ctx : EstCtx) (call : PopCall) : Option (EstCtx × EstError) :=
  let (rv, next) := popCall C A ctx call
  some (next, rv)

/-- The parse that a client makes of a text finds the challenge password. -/
def advertisesPop (text : Bytes) : Bool := (estAsn1ParseAttributes C A text text.length).2

/-- An accepted text with the challenge password in it. -/
def requiresPop (text : Bytes) : Bool := estAsn1ParseAttributes C A text text.length = (.none, true)

/-- Every successful response names the challenge password exactly if a request
without one is turned away. -/
def Agrees (ctx : EstCtx) : Prop :=
  ∀ peerCert pathSeg r, estHandleCsrAttrs C A ctx peerCert pathSeg = some r →
    r.rc = .none ∨ r.rc = .httpNoContent →
    ∀ ssl req, getAttrByNid req nidChallengePassword = none →
      (r.sent.any (advertisesPop C A) = true ↔ estTlsUidAuth ctx ssl req ≠ some .none)

/-- A server as `est_server_init` leaves it, with or without a callback that
returns a text and its length. -/
structure FreshServer (ctx : EstCtx) : Prop where
  mode : ctx.estMode = .server
  pop : ctx.serverEnablePop = true
  list : ctx.serverCsrattrs = none
  callback : ∀ cb, ctx.estGetCsrCb = some cb → ∀ pathSeg peerCert,
    (cb pathSeg peerCert).len = 0 ∨
      ∃ text : Bytes, (cb pathSeg peerCert).data = some text ∧
        (cb pathSeg peerCert).len = text.length

/-- No answer of the callback asks for the challenge password. -/
def PlainAnswers (cb : Option Bytes → Option X509 → CsrAttrs) : Prop :=
  ∀ pathSeg peerCert text, (cb pathSeg peerCert).data = some text →
    (cb pathSeg peerCert).len = text.length → requiresPop C A text = false

/-- The switch is only moved towards the list that is in place, and no list that
asks for the challenge password comes in while the switch is off. -/
def KeepsAgreement (ctx : EstCtx) : PopCall → Prop
  | .enablePop =>
      ctx.estGetCsrCb = none → ∀ text, ctx.serverCsrattrs = some text →
        advertisesPop C A text = true
  | .disablePop =>
      match ctx.estGetCsrCb with
      | some cb => PlainAnswers C A cb
      | none => ∀ text, ctx.serverCsrattrs = some text → advertisesPop C A text = false
  | .initCsrattrs (some text) =>
      ctx.estGetCsrCb = none → ctx.serverEnablePop = false → requiresPop C A text = false
  | .initCsrattrs none => True

variable {C A}

section Enforced

theorem estTlsUidAuth_without {ctx : EstCtx} {ssl : Ssl} {req : X509Req}
    (h : getAttrByNid req nidChallengePassword = none) :
    estTlsUidAuth ctx ssl req ≠ some .none ↔ ctx.serverEnablePop = true := by
  rw [estTlsUidAuth, h]
  cases ctx.serverEnablePop with
  | true => simp
  | false => simp

end Enforced

/-- For the text of a list, the parse finds what is listed. -/
theorem advertisesPop_list (hA : A.Lawful) {text : Bytes} {list : AttrList}
    (h : Reads C { data := some text, len := text.length } list) :
    advertisesPop C A text = true ↔ oidChallengePassword ∈ list.listed := by
  obtain ⟨_, hdata, -, hdecode⟩ := h
  rw [Option.some.injEq] at hdata
  subst hdata
  rw [advertisesPop, estAsn1ParseAttributes_reads hA hdecode, AttrList.hasPop, decide_eq_true_iff]

section Added

variable (hA : A.Lawful) (hlocal : A.Local)

include hA hlocal in
/-- What the server makes of a list without the challenge password has it. -/
theorem estAddChallengePassword_advertises (hread : ReadsBack C.bioRead) {text textPop : Bytes}
    (hparse : estAsn1ParseAttributes C A text text.length = (.none, false))
    (hadd : estAddChallengePassword C A text text.length = (.none, textPop)) :
    advertisesPop C A textPop = true := by
  generalize hder : estBase64Decode C.bioRead text ((text.length : Int).toNat * 2) = der
  have hsane : der ≠ [] ∧ estAsn1SanityTest A der = (.none, false) := by
    unfold estAsn1ParseAttributes at hparse
    rw [hder] at hparse
    split at hparse
    · cases hparse
    · by_cases hne : der = []
      · simp [hne] at hparse
      · exact ⟨hne, by simpa only [if_neg hne] using hparse⟩
  have htag : (A.getObject der der.length).tag = tagSequence := by
    unfold estAddChallengePassword at hadd
    simp only [hder, if_neg hsane.1] at hadd
    by_contra htag
    rw [if_pos htag] at hadd
    cases hadd
  rw [estAddChallengePassword_of_sequence hder hsane.1 htag rfl, Prod.mk.injEq] at hadd
  obtain ⟨-, objects, hwalked, -, hlimit⟩ := (estAsn1SanityTest_none_iff hlocal).mp hsane.2
  have hlength : (der.drop (A.getObject der der.length).headerLen).length ≤ maxCsrattrs := by
    rw [List.length_drop]
    exact Nat.le_trans (Nat.sub_le _ _) hlimit
  unfold maxCsrattrs at hlength
  have hpop := walked_withPop hA hlocal (walked_content htag hsane.1 hwalked) (by omega)
  have hchpw : hexChpw.length = 11 := rfl
  have hlong : minAsn1Csrattrs ≤ (popHeader (der.drop (A.getObject der der.length).headerLen ++
      hexChpw).length ++ (der.drop (A.getObject der der.length).headerLen ++ hexChpw)).length := by
    rw [List.length_append, List.length_append]
    unfold minAsn1Csrattrs
    omega
  have hparsed := (estAsn1ParseAttributes_encoded (A := A) hread
    (List.ne_nil_of_length_pos (Nat.lt_of_lt_of_le (by decide) hlong))).2
  rw [advertisesPop, ← hadd.2, hparsed, estAsn1SanityTest_of_walked hlocal hpop hlong,
    meetsPop_append, meetsPop_challengePassword hA, Bool.or_true]

end Added

section Responses

variable {ctx : EstCtx}

theorem deliver_rc (text : Option Bytes) (len : Int) : (deliver ctx text len).rc = .none := by
  unfold deliver
  split
  · rfl
  · rfl

/-- A whole text is advertised as it is. -/
theorem deliver_advertises (text : Bytes) :
    (deliver ctx (some text) text.length).sent.any (advertisesPop C A) =
      advertisesPop C A text := by
  cases text with
  | nil =>
    unfold deliver
    split
    · rfl
    · rfl
  | cons c rest =>
    rw [deliver_sent (by simp)]
    rfl

theorem deliver_nothing (text : Option Bytes) :
    (deliver ctx text 0).sent.any (advertisesPop C A) = false := by
  unfold deliver
  split
  · rfl
  · cases text with
    | none => rfl
    | some text => rfl

variable (hA : A.Lawful) (hlocal : A.Local) (hread : ReadsBack C.bioRead)

include hA hread in
theorem estCsrattrsPop_advertises : advertisesPop C A estCsrattrsPop = true := by
  have hlist := reads_base64Text hread popList
  rw [← estCsrattrsPop_eq] at hlist
  exact (advertisesPop_list hA hlist).mpr (by decide)

/-- The answer of a callback that returns a text and its length. -/
def IsText (answer : CsrAttrs) : Prop :=
  answer.len = 0 ∨ ∃ text : Bytes, answer.data = some text ∧ answer.len = text.length

include hA hlocal hread in
/-- With the switch on, every list goes out with the challenge password. -/
theorem callbackAttrs_pop {answer : CsrAttrs} {r : AttrsResponse}
    (hpop : ctx.serverEnablePop = true) (hanswer : IsText answer)
    (hr : callbackAttrs C A ctx answer = some r) (hrc : r.rc = .none) :
    r.sent.any (advertisesPop C A) = true := by
  have hdefault : (deliver ctx (some estCsrattrsPop) estCsrattrsPop.length).sent.any
      (advertisesPop C A) = true := by
    rw [deliver_advertises]
    exact estCsrattrsPop_advertises hA hread
  obtain ⟨data, len⟩ := answer
  by_cases hlen : len = 0
  · subst hlen
    cases data with
    | none =>
      simp only [callbackAttrs, hpop, minCsrattrs, ne_eq, not_true_eq_false, if_false, if_true] at hr
      rw [if_neg (by decide), Option.some.injEq] at hr
      rw [← hr]
      exact hdefault
    | some text =>
      simp only [callbackAttrs, hpop, estIsChallengePasswordPresent, ne_eq, not_true_eq_false,
        false_and, if_false, if_true, Bool.false_eq_true, Option.some.injEq] at hr
      rw [← hr]
      exact hdefault
  · rcases hanswer with hzero | ⟨text, hdata, htext⟩
    · exact absurd hzero hlen
    · simp only at hdata htext
      subst hdata htext
      have hpresent : estIsChallengePasswordPresent C A text text.length =
          estAsn1ParseAttributes C A text text.length := by
        rw [estIsChallengePasswordPresent, if_neg hlen]
      simp only [callbackAttrs, hpop, hpresent, if_true, if_neg hlen] at hr
      generalize hparse : estAsn1ParseAttributes C A text text.length = parsed at hr
      obtain ⟨rv, found⟩ := parsed
      by_cases hrv : rv = .none
      · subst hrv
        simp only [ne_eq, not_true_eq_false, and_false, if_false] at hr
        cases found with
        | true =>
          simp only [if_true, Option.some.injEq] at hr
          rw [← hr, deliver_advertises, advertisesPop, hparse]
        | false =>
          simp only [Bool.false_eq_true, if_false] at hr
          generalize hadd : estAddChallengePassword C A text text.length = added at hr
          obtain ⟨rv, textPop⟩ := added
          by_cases hrv : rv = .none
          · subst hrv
            simp only [not_true_eq_false, if_false, Option.some.injEq] at hr
            rw [← hr, deliver_advertises]
            exact estAddChallengePassword_advertises hA hlocal hread hparse hadd
          · simp only [hrv, not_false_eq_true, if_true, Option.some.injEq] at hr
            rw [← hr] at hrc
            exact absurd hrc hrv
      · simp only [ne_eq, hlen, hrv, not_false_eq_true, and_self, if_true, Option.some.injEq] at hr
        rw [← hr] at hrc
        exact absurd hrc hrv

/-- With the switch off, a list goes out as it is. -/
theorem callbackAttrs_no_pop {answer : CsrAttrs} {r : AttrsResponse}
    (hpop : ctx.serverEnablePop = false) (hanswer : IsText answer)
    (hr : callbackAttrs C A ctx answer = some r) :
    (r.rc = .none ∧ r.sent.any (advertisesPop C A) = true) ↔
      ∃ text, answer.data = some text ∧ answer.len = text.length ∧
        requiresPop C A text = true := by
  obtain ⟨data, len⟩ := answer
  by_cases hlen : len = 0
  · subst hlen
    have hsent : r.sent.any (advertisesPop C A) = false := by
      cases data with
      | none =>
        simp only [callbackAttrs, hpop, minCsrattrs, ne_eq, not_true_eq_false, if_false,
          Bool.false_eq_true] at hr
        rw [if_neg (by decide), Option.some.injEq] at hr
        rw [← hr]
        exact deliver_nothing none
      | some text =>
        simp only [callbackAttrs, hpop, ne_eq, not_true_eq_false, false_and, if_false,
          Bool.false_eq_true, Option.some.injEq] at hr
        rw [← hr]
        exact deliver_nothing (some text)
    constructor
    · intro h
      rw [hsent] at h
      cases h.2
    · rintro ⟨text, -, htext, hrequired⟩
      rw [show text = [] from List.length_eq_zero_iff.mp (by simpa using htext.symm)] at hrequired
      cases hrequired
  · rcases hanswer with hzero | ⟨text, hdata, htext⟩
    · exact absurd hzero hlen
    · simp only at hdata htext
      subst hdata htext
      simp only [callbackAttrs, hpop, Bool.false_eq_true, if_false] at hr
      have hwhole : (∃ other : Bytes, some text = some other ∧ (text.length : Int) = other.length ∧
          requiresPop C A other = true) ↔ requiresPop C A text = true := by
        constructor
        · rintro ⟨other, hsame, -, hrequired⟩
          rwa [Option.some.inj hsame]
        · intro hrequired
          exact ⟨text, rfl, rfl, hrequired⟩
      rw [hwhole, requiresPop, decide_eq_true_iff]
      by_cases hrv : (estAsn1ParseAttributes C A text text.length).1 = .none
      · rw [if_neg (by simp [hrv]), Option.some.injEq] at hr
        rw [← hr, deliver_advertises, deliver_rc, advertisesPop, Prod.ext_iff]
        simp [hrv]
      · rw [if_pos ⟨hlen, hrv⟩, Option.some.injEq] at hr
        rw [← hr, Prod.ext_iff]
        simp [hrv]

end Responses

section Codes

theorem sanityLoop_has_content (der : Bytes) (fuel ptr : Nat) (pop : Bool) :
    (sanityLoop A der fuel ptr pop).1 ≠ .httpNoContent := by
  fun_induction sanityLoop A der fuel ptr pop with
  | case1 => simp
  | case2 => simp
  | case3 _ _ _ _ _ _ _ _ _ _ _ ih => exact ih
  | case4 _ _ _ _ _ _ _ _ _ ih => exact ih
  | case5 _ _ _ _ _ _ _ _ _ ih => exact ih
  | case6 _ _ _ _ _ _ _ _ _ ih => exact ih
  | case7 => simp
  | case8 => simp
  | case9 => simp

theorem estAsn1ParseAttributes_has_content (text : Bytes) (len : Int) :
    (estAsn1ParseAttributes C A text len).1 ≠ .httpNoContent := by
  unfold estAsn1ParseAttributes
  simp only
  split
  · decide
  · split
    · decide
    · unfold estAsn1SanityTest
      split
      · decide
      · apply sanityLoop_has_content

theorem estAddChallengePassword_has_content (text : Bytes) (len : Int) :
    (estAddChallengePassword C A text len).1 ≠ .httpNoContent := by
  unfold estAddChallengePassword
  simp only
  split
  · decide
  · split
    · decide
    · split
      · simp
      · decide

theorem callbackAttrs_defined {ctx : EstCtx} {answer : CsrAttrs} {text : Bytes}
    (hdata : answer.data = some text) : ∃ r, callbackAttrs C A ctx answer = some r := by
  simp only [callbackAttrs, hdata]
  repeat' split
  all_goals exact ⟨_, rfl⟩

/-- Only a server without a list answers that there is no content. -/
theorem callbackAttrs_has_content {ctx : EstCtx} {answer : CsrAttrs} {r : AttrsResponse}
    (hr : callbackAttrs C A ctx answer = some r) : r.rc ≠ .httpNoContent := by
  have hdeliver : ∀ text len, (deliver ctx text len).rc ≠ .httpNoContent := by
    intro text len
    rw [deliver_rc]
    decide
  unfold callbackAttrs at hr
  split at hr
  · repeat' split at hr
    all_goals cases hr
    · decide
    · exact hdeliver _ _
    · exact hdeliver _ _
  · rename_i text hdata
    have hparse := estAsn1ParseAttributes_has_content (C := C) (A := A) text answer.len
    have hpresent : (estIsChallengePasswordPresent C A text answer.len).1 ≠ .httpNoContent := by
      unfold estIsChallengePasswordPresent
      split
      · decide
      · exact hparse
    have hadd := estAddChallengePassword_has_content (C := C) (A := A) text answer.len
    simp only at hr
    repeat' split at hr
    all_goals cases hr
    · exact hparse
    · exact hpresent
    · exact hdeliver _ _
    · exact hdeliver _ _
    · exact hadd
    · exact hdeliver _ _
    · exact hdeliver _ _

end Codes

section Agreement

variable {ctx : EstCtx} (hA : A.Lawful) (hlocal : A.Local) (hread : ReadsBack C.bioRead)

/-- A request of a client that knows nothing of the challenge password. -/
def bareRequest : X509Req where
  subject := []
  attributes := []
  pubKey := []
  signature := []

/-- Agreement in terms of the switch. -/
theorem agrees_iff_switch :
    Agrees C A ctx ↔ ∀ peerCert pathSeg r, estHandleCsrAttrs C A ctx peerCert pathSeg = some r →
      r.rc = .none ∨ r.rc = .httpNoContent →
      r.sent.any (advertisesPop C A) = ctx.serverEnablePop := by
  constructor
  · intro h peerCert pathSeg r hr hrc
    have hiff := h peerCert pathSeg r hr hrc devSession bareRequest rfl
    rw [estTlsUidAuth_without rfl] at hiff
    exact Bool.eq_iff_iff.mpr hiff
  · intro h peerCert pathSeg r hr hrc ssl req hreq
    rw [estTlsUidAuth_without hreq, h peerCert pathSeg r hr hrc]

include hA hread in
/-- A configured list has to say what the switch says. -/
theorem agrees_stored_iff (hcb : ctx.estGetCsrCb = none) :
    Agrees C A ctx ↔ ∀ text, ctx.serverCsrattrs = some text →
      advertisesPop C A text = ctx.serverEnablePop := by
  rw [agrees_iff_switch]
  cases hlist : ctx.serverCsrattrs with
  | some text =>
    simp only [estHandleCsrAttrs, hcb, hlist, Option.some.injEq]
    constructor
    · rintro h other rfl
      have hswitch := h none none _ rfl (Or.inl (deliver_rc _ _))
      rw [deliver_advertises] at hswitch
      exact hswitch
    · rintro h - - r rfl -
      rw [deliver_advertises]
      exact h text rfl
  | none =>
    simp only [estHandleCsrAttrs, hcb, hlist]
    constructor
    · rintro - text htext
      cases htext
    · rintro - - - r hr -
      split at hr
      · rename_i hpop
        rw [← Option.some.inj hr, deliver_advertises, hpop]
        exact estCsrattrsPop_advertises hA hread
      · rename_i hpop
        rw [← Option.some.inj hr, Bool.eq_false_iff.mpr hpop]
        rfl

include hA hlocal hread in
/-- A callback is in the way only while the switch is off. -/
theorem agrees_callback_iff {cb : Option Bytes → Option X509 → CsrAttrs}
    (hcb : ctx.estGetCsrCb = some cb) (htext : ∀ pathSeg peerCert, IsText (cb pathSeg peerCert)) :
    Agrees C A ctx ↔ ctx.serverEnablePop = true ∨ PlainAnswers C A cb := by
  rw [agrees_iff_switch]
  simp only [estHandleCsrAttrs, hcb]
  cases hpop : ctx.serverEnablePop with
  | true =>
    simp only [true_or, iff_true]
    intro peerCert pathSeg r hr hrc
    have hok : r.rc = .none := hrc.resolve_right (callbackAttrs_has_content hr)
    exact callbackAttrs_pop hA hlocal hread hpop (htext pathSeg peerCert) hr hok
  | false =>
    simp only [Bool.false_eq_true, false_or]
    constructor
    · intro h pathSeg peerCert text hdata hlen
      obtain ⟨r, hr⟩ := callbackAttrs_defined (C := C) (A := A) hdata
      by_contra hrequired
      obtain ⟨hok, hadvertised⟩ := (callbackAttrs_no_pop hpop (htext pathSeg peerCert) hr).mpr
        ⟨text, hdata, hlen, Bool.eq_true_of_not_eq_false hrequired⟩
      rw [h peerCert pathSeg r hr (Or.inl hok)] at hadvertised
      cases hadvertised
    · intro h peerCert pathSeg r hr hrc
      have hok : r.rc = .none := hrc.resolve_right (callbackAttrs_has_content hr)
      have hiff := callbackAttrs_no_pop hpop (htext pathSeg peerCert) hr
      by_contra hadvertised
      obtain ⟨text, hdata, hlen, hrequired⟩ :=
        hiff.mp ⟨hok, Bool.eq_true_of_not_eq_false hadvertised⟩
      rw [h pathSeg peerCert text hdata hlen] at hrequired
      cases hrequired

end Agreement

section Steps

variable {ctx next : EstCtx} {rv : EstError} {call : PopCall}
variable (hA : A.Lawful) (hlocal : A.Local) (hread : ReadsBack C.bioRead)

/-- What holds in every state of a server: the mode and the callback stay. -/
structure PopInv (C : Crypto) (A : Asn1Ops) (ctx : EstCtx) : Prop where
  mode : ctx.estMode = .server
  callback : ∀ cb, ctx.estGetCsrCb = some cb → ∀ pathSeg peerCert, IsText (cb pathSeg peerCert)
  agrees : Agrees C A ctx

theorem popCall_mode (ctx : EstCtx) (call : PopCall) :
    (popCall C A ctx call).2.estMode = ctx.estMode ∧
      (popCall C A ctx call).2.estGetCsrCb = ctx.estGetCsrCb := by
  cases call with
  | enablePop => exact ⟨rfl, rfl⟩
  | disablePop => exact ⟨rfl, rfl⟩
  | initCsrattrs csrattrs =>
    cases csrattrs with
    | none =>
      unfold popCall initCsrattrs
      simp only
      split
      · exact ⟨rfl, rfl⟩
      · exact ⟨rfl, rfl⟩
    | some text => exact ⟨rfl, rfl⟩

/-- A list that comes in while the switch is off is kept as it is. -/
theorem estServerInitCsrattrs_no_pop (hmode : ctx.estMode = .server)
    (hpop : ctx.serverEnablePop = false) (text : Bytes) :
    (∀ kept, (estServerInitCsrattrs C A ctx text).2 = some kept →
      advertisesPop C A kept = false) ↔ requiresPop C A text = false := by
  rw [requiresPop, decide_eq_false_iff_not, Prod.ext_iff]
  simp only [estServerInitCsrattrs, hmode, hpop, ne_eq, not_true_eq_false, if_false,
    Bool.false_eq_true]
  split
  · rename_i hshort
    have hrefused : (estAsn1ParseAttributes C A text text.length).1 = .invalidParameters := by
      rw [estAsn1ParseAttributes, if_pos (by omega)]
    simp [hrefused]
  · split
    · rename_i hrefused
      simp [hrefused]
    · rename_i haccepted
      push Not at haccepted
      simp [haccepted, advertisesPop]

include hA hlocal hread in
/-- A list that comes in while the switch is on has the challenge password. -/
theorem estServerInitCsrattrs_pop (hmode : ctx.estMode = .server)
    (hpop : ctx.serverEnablePop = true) {text kept : Bytes}
    (hkept : (estServerInitCsrattrs C A ctx text).2 = some kept) :
    advertisesPop C A kept = true := by
  simp only [estServerInitCsrattrs, hmode, hpop, ne_eq, not_true_eq_false, if_false,
    if_true] at hkept
  split at hkept
  · cases hkept
  · rename_i hlong
    have hpresent : estIsChallengePasswordPresent C A text text.length =
        estAsn1ParseAttributes C A text text.length := by
      rw [estIsChallengePasswordPresent, if_neg (by unfold minCsrattrs at hlong; omega)]
    rw [hpresent] at hkept
    generalize hparse : estAsn1ParseAttributes C A text text.length = parsed at hkept
    obtain ⟨rv, found⟩ := parsed
    split at hkept
    · cases hkept
    · rename_i haccepted
      simp only [not_not] at haccepted
      subst haccepted
      cases found with
      | true =>
        simp only [if_true, Option.some.injEq] at hkept
        rw [← hkept, advertisesPop, hparse]
      | false =>
        simp only [Bool.false_eq_true, if_false] at hkept
        split at hkept
        · cases hkept
        · rename_i hadded
          simp only [not_not] at hadded
          rw [Option.some.injEq] at hkept
          exact estAddChallengePassword_advertises hA hlocal hread hparse
            (Prod.ext hadded hkept)

section Configured

variable (hcb : ctx.estGetCsrCb = none)
include hA hread hcb

theorem enablePop_agrees_iff :
    Agrees C A (popCall C A ctx .enablePop).2 ↔ KeepsAgreement C A ctx .enablePop := by
  rw [agrees_stored_iff hA hread (by exact hcb)]
  exact ⟨fun h _ => h, fun h => h hcb⟩

theorem disablePop_agrees_iff :
    Agrees C A (popCall C A ctx .disablePop).2 ↔ KeepsAgreement C A ctx .disablePop := by
  rw [agrees_stored_iff hA hread (by exact hcb)]
  simp only [KeepsAgreement, hcb]
  rfl

include hlocal in
theorem initCsrattrs_agrees_iff (hmode : ctx.estMode = .server) (csrattrs : Option Bytes) :
    Agrees C A (popCall C A ctx (.initCsrattrs csrattrs)).2 ↔
      KeepsAgreement C A ctx (.initCsrattrs csrattrs) := by
  rw [agrees_stored_iff hA hread (by rw [(popCall_mode ctx _).2, hcb])]
  cases csrattrs with
  | none =>
    simp only [popCall, initCsrattrs, hmode, ne_eq, not_true_eq_false, if_false, KeepsAgreement,
      iff_true]
    intro text htext
    cases htext
  | some text =>
    simp only [popCall, initCsrattrs, KeepsAgreement]
    cases hpop : ctx.serverEnablePop with
    | true =>
      simp only [Bool.true_eq_false, false_imp_iff, implies_true, iff_true]
      intro kept hkept
      exact estServerInitCsrattrs_pop hA hlocal hread hmode hpop hkept
    | false =>
      rw [estServerInitCsrattrs_no_pop hmode hpop]
      exact ⟨fun h _ _ => h, fun h => h hcb rfl⟩

end Configured

include hA hlocal hread in
/-- A call with a callback in place only moves the switch. -/
theorem popCall_callback_iff (h : PopInv C A ctx) {cb : Option Bytes → Option X509 → CsrAttrs}
    (hcb : ctx.estGetCsrCb = some cb) (call : PopCall) :
    Agrees C A (popCall C A ctx call).2 ↔ KeepsAgreement C A ctx call := by
  rw [agrees_callback_iff hA hlocal hread ((popCall_mode ctx call).2.trans hcb)
    (h.callback cb hcb)]
  have hbefore := (agrees_callback_iff hA hlocal hread hcb (h.callback cb hcb)).mp h.agrees
  cases call with
  | enablePop => simp [popCall, estServerEnablePop, KeepsAgreement, hcb]
  | disablePop => simp [popCall, estServerDisablePop, KeepsAgreement, hcb]
  | initCsrattrs csrattrs =>
    cases csrattrs with
    | none => simpa [popCall, initCsrattrs, KeepsAgreement, h.mode] using hbefore
    | some text => simpa [popCall, initCsrattrs, KeepsAgreement, hcb] using hbefore

include hA hlocal hread in
theorem popCall_agrees_iff (h : PopInv C A ctx) (call : PopCall) :
    Agrees C A (popCall C A ctx call).2 ↔ KeepsAgreement C A ctx call := by
  cases hcb : ctx.estGetCsrCb with
  | some cb => exact popCall_callback_iff hA hlocal hread h hcb call
  | none =>
    cases call with
    | enablePop => exact enablePop_agrees_iff hA hread hcb
    | disablePop => exact disablePop_agrees_iff hA hread hcb
    | initCsrattrs csrattrs => exact initCsrattrs_agrees_iff hA hlocal hread hcb h.mode csrattrs

include hA hlocal hread in
theorem popStep_exact (ctx : EstCtx) (call : PopCall) (h : PopInv C A ctx) :
    ∃ next rv, popStep C A ctx call = some (next, rv) ∧
      (PopInv C A next ↔ KeepsAgreement C A ctx call) := by
  have hmode := popCall_mode (C := C) (A := A) ctx call
  have hagrees := popCall_agrees_iff hA hlocal hread h call
  refine ⟨_, _, rfl, ?_⟩
  constructor
  · intro hnext
    exact hagrees.mp hnext.agrees
  · intro hkeeps
    refine ⟨hmode.1.trans h.mode, ?_, hagrees.mpr hkeeps⟩
    intro cb hcb
    exact h.callback cb (hmode.2.symm.trans hcb)

end Steps

section Runs

variable (hA : A.Lawful) (hlocal : A.Local) (hread : ReadsBack C.bioRead)
include hA hlocal hread

theorem FreshServer.inv {ctx : EstCtx} (h : FreshServer ctx) : PopInv C A ctx where
  mode := h.mode
  callback := h.callback
  agrees := by
    cases hcb : ctx.estGetCsrCb with
    | none =>
      apply (agrees_stored_iff hA hread hcb).mpr
      intro text htext
      rw [h.list] at htext
      cases htext
    | some cb =>
      apply (agrees_callback_iff hA hlocal hread hcb (h.callback cb hcb)).mpr
      exact Or.inl h.pop

end Runs

section Example

/-- A server as it starts, without a callback. -/
def freshCtx : EstCtx := { authCtx with serverEnablePop := true }

theorem freshCtx_fresh : FreshServer freshCtx where
  mode := rfl
  pop := rfl
  list := rfl
  callback := by
    intro cb hcb
    cases hcb

theorem estCsrattrsPop_parsed :
    estAsn1ParseAttributes hostCrypto hostAsn1 estCsrattrsPop estCsrattrsPop.length =
      (.none, true) := by
  decide +kernel

theorem estCsrattrsPop_kept {ctx : EstCtx} (hmode : ctx.estMode = .server) :
    estServerInitCsrattrs hostCrypto hostAsn1 ctx estCsrattrsPop =
      (.none, some estCsrattrsPop) := by
  have hlong : ¬ estCsrattrsPop.length < minCsrattrs := by decide
  have hlen : (estCsrattrsPop.length : Int) ≠ 0 := by decide
  simp only [estServerInitCsrattrs, estIsChallengePasswordPresent, hmode, estCsrattrsPop_parsed,
    if_neg hlong, if_neg hlen, ne_eq, not_true_eq_false, if_false, if_true]
  split
  · rfl
  · rfl

end Example

end LibEst.Server.Pop
