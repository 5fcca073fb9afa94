import LibEst.Server.PopAdded

/-! Setting the list of attributes of a server: the fields that the call changes, what is
left of them when it is refused, and what of the argument is in the list that is kept. -/
namespace LibEst.Server.CsrattrsUpdate

open LibEst.Basic LibEst.OpenSsl LibEst.Base64 LibEst.Lib.ByteString LibEst.Lib.Der
open LibEst.Asn1 LibEst.Server.Context LibEst.Server.CsrAttrs LibEst.Server.Reference

/-- The fields of a context that belong to the list. -/
structure CsrattrsFields where
  serverCsrattrs : Option Bytes
  serverCsrattrsLen : Int
  csrPopPresent : Bool
  deriving DecidableEq

section Model

variable (C : Crypto) (A : Asn1Ops)

/-- The old list is given back. -/
def CsrattrsFields.released (st : CsrattrsFields) : CsrattrsFields :=
  if st.serverCsrattrs = none then st
  else { st with serverCsrattrs := none, serverCsrattrsLen := 0 }

/-- The text is copied to a block of `len + 1` bytes, the last one of which is zero. -/
def CsrattrsFields.store (st : CsrattrsFields) (blockNew : Bool) (text : Bytes) (len : Int) :
    EstError × CsrattrsFields :=
  if !blockNew then (.malloc, st)
  else (.none, { st with serverCsrattrs := some (text.take len.toNat), serverCsrattrsLen := len })

/-- `est_server_init_csrattrs` on a text and the length that the caller gives for it. -/
def initCsrattrsFields (ctx : EstCtx) (blockNew : Bool) (st : CsrattrsFields)
    (csrattrs : Option Bytes) (csrattrsLen : Int) : EstError × CsrattrsFields :=
  if ctx.estMode ≠ .server then (.badMode, st)
  else
    let st := st.released
    match csrattrs with
    | none => (.none, st)
    | some text =>
        if csrattrsLen < minCsrattrs then (.invalidParameters, st)
        else
          let st := { st with csrPopPresent := false }
          if ctx.serverEnablePop then
            let (rv, popPresent) := estIsChallengePasswordPresent C A text csrattrsLen
            if rv ≠ .none then (.invalidParameters, st)
            else
              let st := { st with csrPopPresent := popPresent }
              if popPresent then st.store blockNew text csrattrsLen
              else
                let (rv, textPop) := estAddChallengePassword C A text csrattrsLen
                if rv ≠ .none then (.invalidParameters, st)
                else st.store blockNew textPop textPop.length
          else if (estAsn1ParseAttributes C A text csrattrsLen).1 ≠ .none then
            (.invalidParameters, st)
          else st.store blockNew text csrattrsLen

/-- For a text that is as long as it is said to be, this is the list that the context keeps. -/
theorem initCsrattrsFields_list (ctx : EstCtx) (st : CsrattrsFields) (text : Bytes) :
    ((initCsrattrsFields C A ctx true st (some text) text.length).1,
        (initCsrattrsFields C A ctx true st (some text) text.length).2.serverCsrattrs) =
      estServerInitCsrattrs C A { ctx with serverCsrattrs := st.serverCsrattrs } text := by
  have hreleased : st.released.serverCsrattrs = none := by
    unfold CsrattrsFields.released
    by_cases hlist : st.serverCsrattrs = none
    · rw [if_pos hlist, hlist]
    · rw [if_neg hlist]
  unfold initCsrattrsFields estServerInitCsrattrs
  dsimp only
  by_cases hmode : ctx.estMode = .server
  · rw [if_neg (not_not.mpr hmode), if_neg (not_not.mpr hmode)]
    by_cases hshort : text.length < minCsrattrs
    · rw [if_pos (by omega), if_pos hshort, hreleased]
    · rw [if_neg (by omega), if_neg hshort]
      cases ctx.serverEnablePop with
      | true =>
        rw [if_pos rfl, if_pos rfl]
        generalize estIsChallengePasswordPresent C A text text.length = present
        generalize estAddChallengePassword C A text text.length = added
        by_cases hrv : present.1 = .none
        · rw [if_neg (not_not.mpr hrv), if_neg (not_not.mpr hrv)]
          cases present.2 with
          | true => simp [CsrattrsFields.store]
          | false =>
            by_cases hadd : added.1 = .none
            · simp [hadd, CsrattrsFields.store]
            · simp [hadd, hreleased]
        · rw [if_pos hrv, if_pos hrv, hreleased]
      | false =>
        by_cases hparse : (estAsn1ParseAttributes C A text text.length).1 = .none
        · simp [hparse, CsrattrsFields.store]
        · simp [hparse, hreleased]
  · rw [if_pos hmode, if_pos hmode]

end Model

section Purpose

variable (C : Crypto) (A : Asn1Ops)

/-- The list that a text and its length stand for. -/
def listBytes (text : Bytes) (len : Int) : Bytes := estBase64Decode C.bioRead text (len.toNat * 2)

/-- The list that is kept has the identifiers of the argument, and the challenge password
where it is to be there; the flag says whether the argument had it. -/
structure Replaced (ctx : EstCtx) (text : Bytes) (len : Int) (next : CsrattrsFields) : Prop where
  listed : ∀ objects, Walked A (listBytes C text len) objects →
    ∃ stored others, next.serverCsrattrs = some stored ∧
      Walked A (listBytes C stored next.serverCsrattrsLen) others ∧
      (∀ object ∈ objects, object ∈ others) ∧
      (ctx.serverEnablePop = true → meetsPop A others = true)
  flag : ∀ objects, Walked A (listBytes C text len) objects →
    next.csrPopPresent = meetsPop A objects

/-- An error leaves everything as it was, a success replaces the list. -/
structure AllOrNothing (ctx : EstCtx) (blockNew : Bool) (st : CsrattrsFields)
    (csrattrs : Option Bytes) (len : Int) : Prop where
  refused : (initCsrattrsFields C A ctx blockNew st csrattrs len).1 ≠ .none →
    (initCsrattrsFields C A ctx blockNew st csrattrs len).2 = st
  replaced : ∀ text, csrattrs = some text →
    (initCsrattrsFields C A ctx blockNew st csrattrs len).1 = .none →
      Replaced C A ctx text len (initCsrattrsFields C A ctx blockNew st csrattrs len).2

/-- The first `len` characters stand for a list with the identifiers of the whole text. -/
def KeepsObjects (text : Bytes) (len : Int) : Prop :=
  ∀ objects, Walked A (listBytes C text len) objects →
    ∃ others, Walked A (listBytes C (text.take len.toNat) len) others ∧
      ∀ object ∈ objects, object ∈ others

/-- The list starts with a sequence, in which the challenge password can be put. -/
def StartsWithSequence (text : Bytes) (len : Int) : Prop :=
  (A.getObject (listBytes C text len) (listBytes C text len).length).tag = tagSequence

instance (text : Bytes) (len : Int) : Decidable (StartsWithSequence C A text len) :=
  inferInstanceAs (Decidable (_ = _))

/-- A text that is no list, or a list to which the challenge password cannot be added. -/
def Unusable (ctx : EstCtx) (text : Bytes) (len : Int) : Prop :=
  (estAsn1ParseAttributes C A text len).1 ≠ .none ∨
    ctx.serverEnablePop = true ∧ (estAsn1ParseAttributes C A text len).2 = false ∧
      ¬ StartsWithSequence C A text len

instance (ctx : EstCtx) (text : Bytes) (len : Int) : Decidable (Unusable C A ctx text len) :=
  inferInstanceAs (Decidable (_ ∨ _))

/-- Where the call is refused, there is no old list, and the flag is as it has been left;
where a text is kept as it is, its length does not cut off identifiers, and without the
switch it does not have the challenge password. -/
def Regular (ctx : EstCtx) (blockNew : Bool) (st : CsrattrsFields) (text : Bytes) (len : Int) :
    Prop :=
  if len < minCsrattrs then st.serverCsrattrs = none
  else if Unusable C A ctx text len then st.serverCsrattrs = none ∧ st.csrPopPresent = false
  else if blockNew = false then
    st.serverCsrattrs = none ∧
      st.csrPopPresent = (ctx.serverEnablePop && (estAsn1ParseAttributes C A text len).2)
  else if ctx.serverEnablePop = true then
    (estAsn1ParseAttributes C A text len).2 = true → KeepsObjects C A text len
  else KeepsObjects C A text len ∧ (estAsn1ParseAttributes C A text len).2 = false

end Purpose

section Branches

variable {C : Crypto} {A : Asn1Ops} {ctx : EstCtx} {st : CsrattrsFields} {text : Bytes} {len : Int}

/-- A text that is at most as long as is said keeps its identifiers. -/
theorem keepsObjects_of_length_le (h : text.length ≤ len.toNat) : KeepsObjects C A text len := by
  intro objects hwalked
  rw [List.take_of_length_le h]
  exact ⟨objects, hwalked, fun object hmem => hmem⟩

theorem released_eq_iff : st.released = st ↔ st.serverCsrattrs = none := by
  unfold CsrattrsFields.released
  by_cases hlist : st.serverCsrattrs = none
  · rw [if_pos hlist]
    exact iff_of_true rfl hlist
  · rw [if_neg hlist]
    constructor
    · intro h
      exact (congrArg CsrattrsFields.serverCsrattrs h).symm
    · exact fun h => absurd h hlist

/-- With the flag set anew, everything is as before where there was no list, and the flag
was the same. -/
theorem released_flag_eq_iff (pop : Bool) :
    ({ st.released with csrPopPresent := pop } : CsrattrsFields) = st ↔
      st.serverCsrattrs = none ∧ st.csrPopPresent = pop := by
  constructor
  · intro h
    constructor
    · have hlist := congrArg CsrattrsFields.serverCsrattrs h
      dsimp only at hlist
      rw [← hlist]
      unfold CsrattrsFields.released
      by_cases hnone : st.serverCsrattrs = none
      · rw [if_pos hnone, hnone]
      · rw [if_neg hnone]
    · exact (congrArg CsrattrsFields.csrPopPresent h).symm
  · intro h
    rw [released_eq_iff.mpr h.1, ← h.2]

/-- A call that is refused is all or nothing where it changes nothing. -/
theorem allOrNothing_refused_iff {blockNew : Bool} {rv : EstError} {next : CsrattrsFields}
    (hcall : initCsrattrsFields C A ctx blockNew st (some text) len = (rv, next)) (hrv : rv ≠ .none) :
    AllOrNothing C A ctx blockNew st (some text) len ↔ next = st := by
  constructor
  · intro h
    have hsame := h.refused
    rw [hcall] at hsame
    exact hsame hrv
  · intro hsame
    constructor
    · intro _
      rw [hcall]
      exact hsame
    · intro text' _ hnone
      rw [hcall] at hnone
      exact absurd hnone hrv

theorem allOrNothing_accepted_iff {blockNew : Bool} {next : CsrattrsFields}
    (hcall : initCsrattrsFields C A ctx blockNew st (some text) len = (.none, next)) :
    AllOrNothing C A ctx blockNew st (some text) len ↔ Replaced C A ctx text len next := by
  constructor
  · intro h
    have hreplaced := h.replaced text rfl
    rw [hcall] at hreplaced
    exact hreplaced rfl
  · intro hreplaced
    constructor
    · intro hne
      rw [hcall] at hne
      exact absurd rfl hne
    · intro text' htext _
      rw [hcall, ← Option.some.inj htext]
      exact hreplaced

theorem store_false (kept : Bytes) (keptLen : Int) :
    st.store false kept keptLen = (.malloc, st) := rfl

theorem store_true (kept : Bytes) (keptLen : Int) :
    st.store true kept keptLen =
      (.none,
        { serverCsrattrs := some (kept.take keptLen.toNat), serverCsrattrsLen := keptLen,
          csrPopPresent := st.csrPopPresent }) := rfl

/-- The challenge password can be put in just where there is a sequence first. -/
theorem estAddChallengePassword_none_iff (hne : listBytes C text len ≠ []) :
    (estAddChallengePassword C A text len).1 = .none ↔ StartsWithSequence C A text len := by
  by_cases hsequence : StartsWithSequence C A text len
  · have hadd : estAddChallengePassword C A text len = _ :=
      estAddChallengePassword_of_sequence rfl hne hsequence rfl
    rw [hadd]
    exact iff_of_true rfl hsequence
  · unfold StartsWithSequence listBytes at hsequence
    unfold listBytes at hne
    unfold estAddChallengePassword
    dsimp only
    rw [if_neg hne, if_pos hsequence]
    apply iff_of_false
    · decide
    · exact hsequence

section Accepted

variable (hlocal : A.Local)
include hlocal

/-- What the parse says of a text that it accepts. -/
theorem accepted_walked {pop : Bool} (hparse : estAsn1ParseAttributes C A text len = (.none, pop)) :
    ∃ objects, listBytes C text len ≠ [] ∧ Walked A (listBytes C text len) objects ∧
      pop = meetsPop A objects ∧ (listBytes C text len).length ≤ csrattrsLimit pop := by
  unfold estAsn1ParseAttributes at hparse
  by_cases hshort : len < minCsrattrs
  · rw [if_pos hshort] at hparse
    cases hparse
  · rw [if_neg hshort] at hparse
    dsimp only at hparse
    change (if listBytes C text len = [] then _ else estAsn1SanityTest A (listBytes C text len)) = _
      at hparse
    by_cases hne : listBytes C text len = []
    · rw [if_pos hne] at hparse
      cases hparse
    · rw [if_neg hne] at hparse
      obtain ⟨-, objects, hwalked, hpop, hlimit⟩ := (estAsn1SanityTest_none_iff hlocal).mp hparse
      exact ⟨objects, hne, hwalked, hpop, hlimit⟩

/-- A text that is kept as it is. -/
theorem replaced_text_iff {pop : Bool} (hparse : estAsn1ParseAttributes C A text len = (.none, pop))
    (hpop : ctx.serverEnablePop = true → pop = true) (flag : Bool) :
    Replaced C A ctx text len
        { serverCsrattrs := some (text.take len.toNat), serverCsrattrsLen := len,
          csrPopPresent := flag } ↔
      KeepsObjects C A text len ∧ flag = pop := by
  obtain ⟨objects, hne, hwalked, hmeets, hlimit⟩ := accepted_walked hlocal hparse
  constructor
  · intro h
    constructor
    · intro objects' hwalked'
      obtain ⟨stored, others, hstored, hothers, hall, -⟩ := h.listed objects' hwalked'
      rw [← Option.some.inj hstored] at hothers
      exact ⟨others, hothers, hall⟩
    · rw [hmeets]
      exact h.flag objects hwalked
  · intro h
    obtain ⟨hkeeps, hflag⟩ := h
    constructor
    · intro objects' hwalked'
      obtain ⟨others, hothers, hall⟩ := hkeeps objects' hwalked'
      refine ⟨_, others, rfl, hothers, hall, ?_⟩
      intro henabled
      have hfound : meetsPop A objects = true := hmeets.symm.trans (hpop henabled)
      rw [hwalked.unique hwalked'] at hfound
      obtain ⟨object, hmem, hobject⟩ := List.any_eq_true.mp hfound
      exact List.any_eq_true.mpr ⟨object, hall object hmem, hobject⟩
    · intro objects' hwalked'
      rw [hwalked'.unique hwalked, ← hmeets]
      exact hflag

/-- A list is unusable where putting in the challenge password fails. -/
theorem unusable_iff (hparse : (estAsn1ParseAttributes C A text len).1 = .none) :
    Unusable C A ctx text len ↔
      ctx.serverEnablePop = true ∧ (estAsn1ParseAttributes C A text len).2 = false ∧
        (estAddChallengePassword C A text len).1 ≠ .none := by
  have hparse' : estAsn1ParseAttributes C A text len =
      (.none, (estAsn1ParseAttributes C A text len).2) := Prod.ext hparse rfl
  obtain ⟨objects, hne, hwalked⟩ := accepted_walked hlocal hparse'
  unfold Unusable
  rw [hparse, ← estAddChallengePassword_none_iff hne]
  exact or_iff_right (fun h => h rfl)

/-- The exits of the call on a text, in the order of the source. -/
theorem initCsrattrsFields_server (hmode : ctx.estMode = .server) (blockNew : Bool) :
    initCsrattrsFields C A ctx blockNew st (some text) len =
      if len < minCsrattrs then (.invalidParameters, st.released)
      else if Unusable C A ctx text len then
        (.invalidParameters, { st.released with csrPopPresent := false })
      else
        let pop := (estAsn1ParseAttributes C A text len).2
        let kept := (estAddChallengePassword C A text len).2
        let st := { st.released with csrPopPresent := ctx.serverEnablePop && pop }
        if ctx.serverEnablePop = true ∧ pop = false then st.store blockNew kept kept.length
        else st.store blockNew text len := by
  unfold initCsrattrsFields
  rw [if_neg (not_not.mpr hmode)]
  dsimp only
  by_cases hshort : len < minCsrattrs
  · rw [if_pos hshort, if_pos hshort]
  · have hpresent : estIsChallengePasswordPresent C A text len =
        estAsn1ParseAttributes C A text len := by
      unfold estIsChallengePasswordPresent
      rw [if_neg (by unfold minCsrattrs at hshort; omega)]
    rw [if_neg hshort, if_neg hshort, hpresent]
    by_cases hparse : (estAsn1ParseAttributes C A text len).1 = .none
    · have hunusable := @unusable_iff C A ctx text len hlocal hparse
      rw [hparse]
      cases henabled : ctx.serverEnablePop with
      | true =>
        rw [henabled] at hunusable
        cases hpop : (estAsn1ParseAttributes C A text len).2 with
        | true => simp [hunusable, hpop]
        | false =>
          by_cases hadd : (estAddChallengePassword C A text len).1 = .none
          · simp [hunusable, hpop, hadd]
          · simp [hunusable, hpop, hadd]
      | false => simp [hunusable, henabled]
    · have hunusable : Unusable C A ctx text len := Or.inl hparse
      rw [if_pos hparse, if_pos hparse, if_pos hunusable]
      cases ctx.serverEnablePop with
      | true => rfl
      | false => rfl

variable (hA : A.Lawful) (hread : ReadsBack C.bioRead)
include hA hread

/-- What is kept with the challenge password put in has all that the argument had. -/
theorem replaced_added (hparse : estAsn1ParseAttributes C A text len = (.none, false))
    (hsequence : StartsWithSequence C A text len) :
    Replaced C A ctx text len
      { serverCsrattrs := some ((estAddChallengePassword C A text len).2.take
          ((estAddChallengePassword C A text len).2.length : Int).toNat),
        serverCsrattrsLen := (estAddChallengePassword C A text len).2.length,
        csrPopPresent := false } := by
  obtain ⟨objects, hne, hwalked, hmeets, hlimit⟩ := accepted_walked hlocal hparse
  have hadd : estAddChallengePassword C A text len = _ :=
    estAddChallengePassword_of_sequence rfl hne hsequence rfl
  have hcontent := walked_content hsequence hne hwalked
  change estAddChallengePassword C A text len = (.none, base64Text false
    (popHeader ((listBytes C text len).drop (A.getObject (listBytes C text len)
      (listBytes C text len).length).headerLen ++ hexChpw).length ++
    ((listBytes C text len).drop (A.getObject (listBytes C text len)
      (listBytes C text len).length).headerLen ++ hexChpw))) at hadd
  have hsmall : ((listBytes C text len).drop (A.getObject (listBytes C text len)
      (listBytes C text len).length).headerLen).length + 11 < 65536 := by
    unfold csrattrsLimit at hlimit
    rw [if_neg (by decide), maxCsrattrs] at hlimit
    rw [List.length_drop]
    omega
  generalize (listBytes C text len).drop (A.getObject (listBytes C text len)
    (listBytes C text len).length).headerLen = content at hadd hcontent hsmall
  have hpop := walked_withPop hA hlocal hcontent hsmall
  have hnePop : popHeader (content ++ hexChpw).length ++ (content ++ hexChpw) ≠ [] := by
    apply List.append_ne_nil_of_right_ne_nil
    apply List.append_ne_nil_of_right_ne_nil
    exact List.cons_ne_nil _ _
  have hdecoded := (estAsn1ParseAttributes_encoded (A := A) hread hnePop).1
  rw [hadd]
  dsimp only
  rw [Int.toNat_natCast, List.take_length]
  constructor
  · intro objects' hwalked'
    refine ⟨_, objects ++ [oidChallengePassword], rfl, ?_, ?_, ?_⟩
    · unfold listBytes
      dsimp only
      rw [Int.toNat_natCast, hdecoded]
      exact hpop
    · intro object hmem
      rw [hwalked'.unique hwalked] at hmem
      exact List.mem_append_left _ hmem
    · intro _
      rw [meetsPop_append, meetsPop_challengePassword hA, Bool.or_true]
  · intro objects' hwalked'
    rw [hwalked'.unique hwalked]
    exact hmeets

/-- The last exits: the block is not there, or the argument is kept, with the challenge
password put in where it is wanted and not there. -/
theorem allOrNothing_usable_iff (hmode : ctx.estMode = .server) (blockNew : Bool)
    (hlong : ¬ len < minCsrattrs) (husable : ¬ Unusable C A ctx text len) :
    AllOrNothing C A ctx blockNew st (some text) len ↔
      if blockNew = false then
        st.serverCsrattrs = none ∧
          st.csrPopPresent = (ctx.serverEnablePop && (estAsn1ParseAttributes C A text len).2)
      else if ctx.serverEnablePop = true then
        (estAsn1ParseAttributes C A text len).2 = true → KeepsObjects C A text len
      else KeepsObjects C A text len ∧ (estAsn1ParseAttributes C A text len).2 = false := by
  have hcall := @initCsrattrsFields_server C A ctx st text len hlocal hmode blockNew
  rw [if_neg hlong, if_neg husable] at hcall
  dsimp only at hcall
  cases blockNew with
  | false =>
    have hrefused : initCsrattrsFields C A ctx false st (some text) len = (.malloc,
        { st.released with csrPopPresent :=
            ctx.serverEnablePop && (estAsn1ParseAttributes C A text len).2 }) := by
      rw [hcall, store_false, store_false, ite_self]
    rw [if_pos rfl, allOrNothing_refused_iff hrefused (by decide)]
    exact released_flag_eq_iff _
  | true =>
    have hok : (estAsn1ParseAttributes C A text len).1 = .none := by
      by_contra hrv
      exact husable (Or.inl hrv)
    have hparse : estAsn1ParseAttributes C A text len =
        (.none, (estAsn1ParseAttributes C A text len).2) := Prod.ext hok rfl
    rw [if_neg (by decide)]
    rw [store_true, store_true] at hcall
    dsimp only at hcall
    generalize (estAsn1ParseAttributes C A text len).2 = pop at hcall hparse
    cases henabled : ctx.serverEnablePop with
    | true =>
      rw [henabled, Bool.true_and] at hcall
      rw [if_pos rfl]
      cases pop with
      | true =>
        rw [if_neg (by decide)] at hcall
        rw [allOrNothing_accepted_iff hcall,
          replaced_text_iff hlocal hparse (fun _ => rfl)]
        simp
      | false =>
        have hsequence : StartsWithSequence C A text len := by
          by_contra hother
          apply husable
          right
          rw [hparse]
          exact ⟨henabled, rfl, hother⟩
        rw [if_pos ⟨rfl, rfl⟩] at hcall
        rw [allOrNothing_accepted_iff hcall]
        apply iff_of_true
        · exact replaced_added hlocal hA hread hparse hsequence
        · exact fun h => absurd h (by decide)
    | false =>
      rw [henabled, Bool.false_and, if_neg (fun h => absurd h.1 (by decide))] at hcall
      rw [if_neg (by decide), allOrNothing_accepted_iff hcall,
        replaced_text_iff hlocal hparse (fun h => absurd (henabled.symm.trans h) (by decide)),
        eq_comm (a := false)]

/-- Setting the list is all or nothing just where no list is lost with the error, and none
of the identifiers with the success. -/
theorem init_csrattrs_all_or_nothing_iff (blockNew : Bool) (csrattrs : Option Bytes) :
    AllOrNothing C A ctx blockNew st csrattrs len ↔
      ∀ text, csrattrs = some text → ctx.estMode = .server →
        Regular C A ctx blockNew st text len := by
  by_cases hmode : ctx.estMode = .server
  · cases csrattrs with
    | none =>
      apply iff_of_true
      · constructor
        · intro hne
          unfold initCsrattrsFields at hne
          rw [if_neg (not_not.mpr hmode)] at hne
          exact absurd rfl hne
        · intro text htext
          cases htext
      · intro text htext
        cases htext
    | some text =>
      have hregular : (∀ text', some text = some text' → ctx.estMode = .server →
          Regular C A ctx blockNew st text' len) ↔ Regular C A ctx blockNew st text len := by
        constructor
        · exact fun h => h text rfl hmode
        · intro h text' htext _
          rwa [← Option.some.inj htext]
      have hcall := @initCsrattrsFields_server C A ctx st text len hlocal hmode blockNew
      rw [hregular]
      unfold Regular
      by_cases hshort : len < minCsrattrs
      · rw [if_pos hshort] at hcall ⊢
        rw [allOrNothing_refused_iff hcall (by decide)]
        exact released_eq_iff
      · rw [if_neg hshort] at hcall ⊢
        by_cases hunusable : Unusable C A ctx text len
        · rw [if_pos hunusable] at hcall ⊢
          rw [allOrNothing_refused_iff hcall (by decide)]
          exact released_flag_eq_iff false
        · rw [if_neg hunusable]
          exact allOrNothing_usable_iff hlocal hA hread hmode blockNew hshort hunusable
  · apply iff_of_true
    · constructor
      · intro _
        unfold initCsrattrsFields
        rw [if_pos hmode]
      · intro text _ hnone
        unfold initCsrattrsFields at hnone
        rw [if_pos hmode] at hnone
        cases hnone
    · intro text _ hserver
      exact absurd hserver hmode

end Accepted

/-- The list with the e-mail address only, for a server that wants the challenge password. -/
theorem init_csrattrs_all_or_nothing_email :
    AllOrNothing hostCrypto hostAsn1 { authCtx with serverEnablePop := true } true
      { serverCsrattrs := none, serverCsrattrsLen := 0, csrPopPresent := false }
      (some (ascii "MAsGCSqGSIb3DQEJAQ==")) 20 := by
  apply (init_csrattrs_all_or_nothing_iff hostAsn1_local hostAsn1_lawful readBase64_readsBack
    true _).mpr
  intro text htext _
  rw [← Option.some.inj htext]
  unfold Regular
  rw [if_neg (by decide), if_neg (by decide +kernel), if_neg (by decide), if_pos rfl]
  intro hpop
  exact absurd hpop (by decide +kernel)

/-- A list is lost to a text that is too short, and without the switch the flag is not set
for a list with the challenge password. -/
theorem init_csrattrs_not_all_or_nothing :
    ¬ AllOrNothing hostCrypto hostAsn1 authCtx true
        { serverCsrattrs := some (ascii "MAsGCSqGSIb3DQEJAQ=="), serverCsrattrsLen := 20,
          csrPopPresent := false }
        (some (ascii "MAs")) 3 ∧
      ¬ AllOrNothing hostCrypto hostAsn1 authCtx true
        { serverCsrattrs := none, serverCsrattrsLen := 0, csrPopPresent := false }
        (some (ascii "MAsGCSqGSIb3DQEJBw==")) 20 := by
  constructor
  · intro h
    have hlost := congrArg CsrattrsFields.serverCsrattrs (h.refused (by decide))
    cases hlost
  · intro h
    have hparse : estAsn1ParseAttributes hostCrypto hostAsn1 (ascii "MAsGCSqGSIb3DQEJBw==") 20 =
        (.none, true) := by decide +kernel
    obtain ⟨objects, -, hwalked, hpop, -⟩ := accepted_walked hostAsn1_local hparse
    have hflag := (h.replaced _ rfl (by decide +kernel)).flag objects hwalked
    rw [← hpop] at hflag
    exact absurd hflag (by decide +kernel)

end Branches

end LibEst.Server.CsrattrsUpdate
