import LibEst.Server.CsrAttrsWalk

/-! The walk over a list of attributes, seen as a relation between the bytes and the
object identifiers that are met in them. The sanity test accepts what can be walked to
its end, and a list that is walked keeps its identifiers when more of it follows. -/
namespace LibEst.Server.CsrAttrs

open LibEst.Basic LibEst.OpenSsl LibEst.Base64 LibEst.Lib.ByteString LibEst.Lib.Der
open LibEst.Asn1 LibEst.Server.Context

/-- What a round of a walk meets at the front of the bytes that are left. -/
inductive Turn where
  | malformed
  | object (content : Bytes) (used : Nat)
  | pass (n : Nat)
  deriving DecidableEq

/-- Sequences and sets are entered, other values passed. An identifier that is not taken
for one is entered as well. -/
def turnAt (A : Asn1Ops) (mem : Bytes) : Turn :=
  let h := A.getObject mem mem.length
  if h.error then .malformed
  else if h.tag = tagObject then
    match A.d2iObject mem mem.length with
    | some (object, used) => .object object used
    | none => .pass h.headerLen
  else if h.tag = tagSet ∨ h.tag = tagSequence then .pass h.headerLen
  else .pass (h.headerLen + h.len)

/-- The bytes are walked to their end, and these identifiers are met on the way. -/
inductive Walked (A : Asn1Ops) : Bytes → List Bytes → Prop
  | done : Walked A [] []
  | object {mem content : Bytes} {used : Nat} {objects : List Bytes} (hne : mem ≠ [])
      (hturn : turnAt A mem = .object content used) (hle : used ≤ mem.length)
      (hrest : Walked A (mem.drop used) objects) : Walked A mem (content :: objects)
  | pass {mem : Bytes} {n : Nat} {objects : List Bytes} (hne : mem ≠ [])
      (hturn : turnAt A mem = .pass n) (hle : n ≤ mem.length)
      (hrest : Walked A (mem.drop n) objects) : Walked A mem objects

variable {A : Asn1Ops}

theorem Walked.nil_iff {objects : List Bytes} : Walked A [] objects ↔ objects = [] := by
  constructor
  · intro h
    cases h with
    | done => rfl
    | object hne => exact absurd rfl hne
    | pass hne => exact absurd rfl hne
  · intro h
    rw [h]
    exact .done

/-- What is met is a function of the bytes. -/
theorem Walked.unique {mem : Bytes} {a b : List Bytes} (ha : Walked A mem a)
    (hb : Walked A mem b) : a = b := by
  induction ha generalizing b with
  | done => exact (Walked.nil_iff.mp hb).symm
  | object hne hturn hle hrest ih =>
    cases hb with
    | done => exact absurd rfl hne
    | object _ hturn' _ hrest' =>
      cases hturn.symm.trans hturn'
      rw [ih hrest']
    | pass _ hturn' => cases hturn.symm.trans hturn'
  | pass hne hturn hle hrest ih =>
    cases hb with
    | done => exact absurd rfl hne
    | object _ hturn' => cases hturn.symm.trans hturn'
    | pass _ hturn' _ hrest' =>
      cases hturn.symm.trans hturn'
      exact ih hrest'

/-- One of the identifiers is the challenge password. -/
def meetsPop (A : Asn1Ops) (objects : List Bytes) : Bool :=
  objects.any fun object => decide (A.obj2nid object = nidChallengePassword)

theorem meetsPop_cons (content : Bytes) (objects : List Bytes) :
    meetsPop A (content :: objects) =
      (decide (A.obj2nid content = nidChallengePassword) || meetsPop A objects) := rfl

/-- The longest list that is accepted. -/
def csrattrsLimit (pop : Bool) : Nat := if pop then maxCsrattrsWithpop else maxCsrattrs

section Rounds

variable {der : Bytes} {fuel ptr : Nat} {pop : Bool}

theorem sanityLoop_turn (hptr : ptr < der.length) :
    sanityLoop A der (fuel + 1) ptr pop =
      match turnAt A (der.drop ptr) with
      | .malformed => (.badAsn1Hex, pop)
      | .object content used =>
          sanityLoop A der fuel (ptr + used)
            (pop || decide (A.obj2nid content = nidChallengePassword))
      | .pass n => sanityLoop A der fuel (ptr + n) pop := by
  have hmem : (der.length : Int) - ptr = (der.drop ptr).length := by
    rw [List.length_drop]
    omega
  rw [sanityLoop]
  unfold turnAt
  simp only [hmem]
  rw [if_pos (by rw [List.length_drop]; omega)]
  by_cases herror : (A.getObject (der.drop ptr) (der.drop ptr).length).error = true
  · rw [if_pos herror, if_pos herror]
  · rw [if_neg herror, if_neg herror]
    by_cases htag : (A.getObject (der.drop ptr) (der.drop ptr).length).tag = tagObject
    · rw [if_pos htag, if_pos htag]
      cases A.d2iObject (der.drop ptr) (der.drop ptr).length with
      | none => rfl
      | some object => rfl
    · rw [if_neg htag, if_neg htag]
      split
      · rfl
      · rw [Nat.add_assoc]

theorem sanityLoop_end :
    sanityLoop A der (fuel + 1) der.length pop =
      (if der.length > csrattrsLimit pop then .badAsn1HexTooLong else .none, pop) := by
  rw [sanityLoop]
  simp only
  rw [if_neg (by omega), if_neg (by omega)]
  change (if der.length > csrattrsLimit pop then _ else _) = _
  by_cases hlong : der.length > csrattrsLimit pop
  · rw [if_pos hlong, if_pos hlong]
  · rw [if_neg hlong, if_neg hlong]

theorem sanityLoop_past (hptr : der.length < ptr) :
    sanityLoop A der (fuel + 1) ptr pop = (.badAsn1Hex, pop) := by
  rw [sanityLoop]
  simp only
  rw [if_neg (by omega), if_pos (by omega)]

theorem sanityLoop_le {found : Bool} (h : sanityLoop A der fuel ptr pop = (.none, found)) :
    ptr ≤ der.length := by
  cases fuel with
  | zero => cases h
  | succ fuel =>
    by_contra hlong
    rw [sanityLoop_past (by omega)] at h
    cases h

/-- An accepted walk, from any place on. -/
theorem walked_of_sanityLoop {found : Bool}
    (h : sanityLoop A der fuel ptr pop = (.none, found)) :
    ∃ objects, Walked A (der.drop ptr) objects ∧ found = (pop || meetsPop A objects) ∧
      der.length ≤ csrattrsLimit found := by
  induction fuel generalizing ptr pop with
  | zero => cases h
  | succ fuel ih =>
    have hle := sanityLoop_le h
    by_cases hend : ptr = der.length
    · subst hend
      rw [sanityLoop_end, Prod.mk.injEq] at h
      obtain ⟨hrv, hfound⟩ := h
      subst hfound
      by_cases hlong : der.length > csrattrsLimit pop
      · rw [if_pos hlong] at hrv
        cases hrv
      · refine ⟨[], ?_, by simp [meetsPop], by omega⟩
        rw [List.drop_length]
        exact .done
    · have hne : der.drop ptr ≠ [] := by
        apply List.ne_nil_of_length_pos
        rw [List.length_drop]
        omega
      rw [sanityLoop_turn (by omega)] at h
      split at h
      · cases h
      · rename_i content used hturn
        have hnext := sanityLoop_le h
        obtain ⟨objects, hwalked, hfound, hlimit⟩ := ih h
        rw [← List.drop_drop] at hwalked
        refine ⟨content :: objects, .object hne hturn ?_ hwalked, ?_, hlimit⟩
        · rw [List.length_drop]
          omega
        · rw [hfound, meetsPop_cons, Bool.or_assoc]
      · rename_i n hturn
        have hnext := sanityLoop_le h
        obtain ⟨objects, hwalked, hfound, hlimit⟩ := ih h
        rw [← List.drop_drop] at hwalked
        refine ⟨objects, .pass hne hturn ?_ hwalked, hfound, hlimit⟩
        rw [List.length_drop]
        omega

section Local

variable (hlocal : A.Local)
include hlocal

theorem turnAt_object_pos {mem content : Bytes} {used : Nat}
    (h : turnAt A mem = .object content used) : 0 < used := by
  unfold turnAt at h
  dsimp only at h
  split at h
  · cases h
  · split at h
    · split at h
      · rename_i object used' hobject
        cases h
        exact hlocal.d2iObject_pos _ _ _ _ hobject
      · cases h
    · split at h
      · cases h
      · cases h

theorem turnAt_pass_pos {mem : Bytes} {n : Nat} (h : turnAt A mem = .pass n) : 0 < n := by
  unfold turnAt at h
  dsimp only at h
  split at h
  · cases h
  · rename_i herror
    have hpos := hlocal.headerLen_pos _ _ (Bool.eq_false_iff.mpr herror)
    split at h
    · split at h
      · cases h
      · cases h
        exact hpos
    · split at h
      · cases h
        exact hpos
      · cases h
        omega

/-- What follows the bytes does not change what is met at their front. -/
theorem turnAt_append {mem : Bytes} (more : Bytes) (h : turnAt A mem ≠ .malformed) :
    turnAt A (mem ++ more) = turnAt A mem := by
  have hok : (A.getObject mem mem.length).error = false := by
    by_contra herror
    unfold turnAt at h
    dsimp only at h
    rw [if_pos (by simpa using herror)] at h
    exact h rfl
  unfold turnAt
  rw [hlocal.getObject_append mem more hok, hlocal.d2iObject_append mem more hok]

/-- A walk goes on into what follows. -/
theorem Walked.append {mem more : Bytes} {objects others : List Bytes}
    (h : Walked A mem objects) (hmore : Walked A more others) :
    Walked A (mem ++ more) (objects ++ others) := by
  induction h with
  | done => exact hmore
  | object hne hturn hle hrest ih =>
    apply Walked.object (List.append_ne_nil_of_left_ne_nil hne more)
    · rw [turnAt_append hlocal more (by rw [hturn]; exact Turn.noConfusion), hturn]
    · rw [List.length_append]
      omega
    · rw [List.drop_append_of_le_length hle]
      exact ih
  | pass hne hturn hle hrest ih =>
    apply Walked.pass (List.append_ne_nil_of_left_ne_nil hne more)
    · rw [turnAt_append hlocal more (by rw [hturn]; exact Turn.noConfusion), hturn]
    · rw [List.length_append]
      omega
    · rw [List.drop_append_of_le_length hle]
      exact ih

/-- The loop gets to the end of what can be walked. -/
theorem sanityLoop_of_walked {mem : Bytes} {objects : List Bytes} (h : Walked A mem objects)
    (hmem : der.drop ptr = mem) (hptr : ptr ≤ der.length) (hfuel : mem.length < fuel) :
    sanityLoop A der fuel ptr pop =
      (if der.length > csrattrsLimit (pop || meetsPop A objects) then .badAsn1HexTooLong else .none,
        pop || meetsPop A objects) := by
  have hlength := congrArg List.length hmem
  rw [List.length_drop] at hlength
  induction h generalizing fuel ptr pop with
  | done =>
    rw [List.length_nil] at hlength hfuel
    have hend : ptr = der.length := by omega
    obtain ⟨fuel, rfl⟩ := Nat.exists_eq_add_one.mpr hfuel
    rw [hend, sanityLoop_end]
    simp [meetsPop]
  | @object mem content used objects hne hturn hle hrest ih =>
    obtain ⟨fuel, rfl⟩ := Nat.exists_eq_add_one.mpr (Nat.lt_of_le_of_lt (Nat.zero_le _) hfuel)
    have hpos := turnAt_object_pos hlocal hturn
    have hdrop := List.length_drop (l := mem) (i := used)
    rw [sanityLoop_turn (by omega), hmem, hturn]
    dsimp only
    rw [ih (by rw [← List.drop_drop, hmem]) (by omega) (by omega) (by omega)]
    rw [meetsPop_cons, ← Bool.or_assoc]
  | @pass mem n objects hne hturn hle hrest ih =>
    obtain ⟨fuel, rfl⟩ := Nat.exists_eq_add_one.mpr (Nat.lt_of_le_of_lt (Nat.zero_le _) hfuel)
    have hpos := turnAt_pass_pos hlocal hturn
    have hdrop := List.length_drop (l := mem) (i := n)
    rw [sanityLoop_turn (by omega), hmem, hturn]
    dsimp only
    rw [ih (by rw [← List.drop_drop, hmem]) (by omega) (by omega) (by omega)]

/-- The test accepts the bytes that can be walked to their end and are neither too short
nor, for what is met in them, too long. -/
theorem estAsn1SanityTest_none_iff {der : Bytes} {found : Bool} :
    estAsn1SanityTest A der = (.none, found) ↔
      minAsn1Csrattrs ≤ der.length ∧ ∃ objects, Walked A der objects ∧ found = meetsPop A objects ∧
        der.length ≤ csrattrsLimit found := by
  unfold estAsn1SanityTest
  by_cases hshort : der.length < minAsn1Csrattrs
  · rw [if_pos hshort]
    constructor
    · intro h
      cases h
    · intro h
      omega
  · rw [if_neg hshort]
    constructor
    · intro h
      exact ⟨by omega, walked_of_sanityLoop h⟩
    · intro h
      obtain ⟨-, objects, hwalked, hfound, hlimit⟩ := h
      rw [sanityLoop_of_walked hlocal hwalked rfl (Nat.zero_le _) (by omega), Bool.false_or,
        ← hfound, if_neg (by omega)]

end Local

end Rounds

end LibEst.Server.CsrAttrs
