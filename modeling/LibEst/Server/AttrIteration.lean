import LibEst.Server.PopAdded

/-! The iteration over a list of attributes by `est_get_attributes_helper`, which the
caller repeats on the pointer and the length that it gets back. -/
namespace LibEst.Server.AttrIteration

open LibEst.Basic LibEst.OpenSsl LibEst.Base64 LibEst.Lib.ByteString LibEst.Lib.Der
open LibEst.Asn1 LibEst.Server.Context LibEst.Server.CsrAttrs LibEst.Server.Reference

/-- What the caller hands in and gets back: where its pointer stands in the list, the
length from there on, and the identifier. -/
structure AttrCursor where
  derPtr : Nat
  derLen : Int
  newNid : Nid
  deriving DecidableEq, Repr

variable (A : Asn1Ops)

/-- The loop of `est_get_attributes_helper`; `string` is its own pointer. -/
def attributesLoop (der : Bytes) (c : AttrCursor) : Nat → Nat → EstError × AttrCursor
  | 0, _ => (.unknown, c)
  | fuel + 1, string =>
      let outLen : Int := c.derLen - (string - c.derPtr)
      if 0 < outLen then
        let h := A.getObject (der.drop string) outLen
        if h.error then (.badAsn1Hex, c)
        else if h.tag = tagObject then
          match A.d2iObject (der.drop string) outLen with
          | some (object, used) =>
              (.none, {
                derPtr := string + used
                derLen := c.derLen - (string + used - c.derPtr)
                newNid := A.obj2nid object })
          | none => attributesLoop der c fuel (string + h.headerLen)
        else if h.tag = tagSet ∨ h.tag = tagSequence then
          attributesLoop der c fuel (string + h.headerLen)
        else attributesLoop der c fuel (string + h.headerLen + h.len)
      -- nothing is stored at the end of the list
      else (.none, c)

def estGetAttributesHelper (der : Bytes) (c : AttrCursor) : EstError × AttrCursor :=
  attributesLoop A der c (c.derLen.toNat + 1) c.derPtr

/-- What the caller has after this many calls, and the result of the last of them. -/
def helperCalls (der : Bytes) (c : AttrCursor) : Nat → EstError × AttrCursor
  | 0 => (.none, c)
  | n + 1 => estGetAttributesHelper A der (helperCalls der c n).2

/-- A place in a list, with the length from there to its end. -/
def cursorAt (der : Bytes) (ptr : Nat) (newNid : Nid) : AttrCursor :=
  { derPtr := ptr, derLen := der.length - ptr, newNid := newNid }

/-- A call for each identifier, in order, each with less left than before. -/
structure HandsOut (der : Bytes) (objects : List Bytes) (newNid : Nid) : Prop where
  succeeds : ∀ i < objects.length,
    (helperCalls A der (cursorAt der 0 newNid) (i + 1)).1 = .none
  nid : ∀ (i : Nat) (hi : i < objects.length),
    (helperCalls A der (cursorAt der 0 newNid) (i + 1)).2.newNid = A.obj2nid objects[i]
  decreases : ∀ i < objects.length,
    (helperCalls A der (cursorAt der 0 newNid) (i + 1)).2.derLen <
      (helperCalls A der (cursorAt der 0 newNid) i).2.derLen

/-- As it is documented: after the last identifier there are an error and none. -/
structure IterationComplete (der : Bytes) (objects : List Bytes) (newNid : Nid) : Prop where
  handsOut : HandsOut A der objects newNid
  ends : (helperCalls A der (cursorAt der 0 newNid) (objects.length + 1)).1 = .badAsn1Hex
  cleared : (helperCalls A der (cursorAt der 0 newNid) (objects.length + 1)).2.newNid = 0

variable {A} {der : Bytes}

section Calls

theorem attributesLoop_turn {fuel string ptr : Nat} {newNid : Nid} (hstring : string < der.length) :
    attributesLoop A der (cursorAt der ptr newNid) (fuel + 1) string =
      match turnAt A (der.drop string) with
      | .malformed => (.badAsn1Hex, cursorAt der ptr newNid)
      | .object content used => (.none, cursorAt der (string + used) (A.obj2nid content))
      | .pass n => attributesLoop A der (cursorAt der ptr newNid) fuel (string + n) := by
  have hmem : (cursorAt der ptr newNid).derLen - (string - (cursorAt der ptr newNid).derPtr) =
      (der.drop string).length := by
    rw [List.length_drop]
    unfold cursorAt
    dsimp only
    omega
  have hnext (used : Nat) : (cursorAt der ptr newNid).derLen -
      ((string : Int) + used - (cursorAt der ptr newNid).derPtr) =
        (der.length : Int) - (string + used : Nat) := by
    unfold cursorAt
    dsimp only
    omega
  rw [attributesLoop]
  unfold turnAt
  simp only [hmem]
  rw [if_pos (by rw [List.length_drop]; omega)]
  by_cases herror : (A.getObject (der.drop string) (der.drop string).length).error = true
  · rw [if_pos herror, if_pos herror]
  · rw [if_neg herror, if_neg herror]
    by_cases htag : (A.getObject (der.drop string) (der.drop string).length).tag = tagObject
    · rw [if_pos htag, if_pos htag]
      cases A.d2iObject (der.drop string) (der.drop string).length with
      | none => rfl
      | some object =>
        dsimp only
        rw [hnext]
        rfl
    · rw [if_neg htag, if_neg htag]
      split
      · rfl
      · rw [Nat.add_assoc]

theorem attributesLoop_end {fuel ptr : Nat} {newNid : Nid} :
    attributesLoop A der (cursorAt der ptr newNid) (fuel + 1) der.length =
      (.none, cursorAt der ptr newNid) := by
  rw [attributesLoop]
  unfold cursorAt
  dsimp only
  rw [if_neg (by omega)]

variable (hlocal : A.Local)
include hlocal

/-- A call in a list that can be walked goes to the next identifier, if there is one. -/
theorem attributesLoop_walked {mem : Bytes} {objects : List Bytes} (h : Walked A mem objects)
    {fuel string ptr : Nat} {newNid : Nid} (hmem : der.drop string = mem)
    (hstring : string ≤ der.length) (hfuel : mem.length < fuel) :
    (objects = [] → attributesLoop A der (cursorAt der ptr newNid) fuel string =
      (.none, cursorAt der ptr newNid)) ∧
    ∀ content rest, objects = content :: rest → ∃ next, string < next ∧ next ≤ der.length ∧
      Walked A (der.drop next) rest ∧
        attributesLoop A der (cursorAt der ptr newNid) fuel string =
          (.none, cursorAt der next (A.obj2nid content)) := by
  have hlength := congrArg List.length hmem
  rw [List.length_drop] at hlength
  obtain ⟨fuel, rfl⟩ := Nat.exists_eq_add_one.mpr (Nat.lt_of_le_of_lt (Nat.zero_le _) hfuel)
  induction h generalizing fuel string with
  | done =>
    rw [List.length_nil] at hlength
    have hend : string = der.length := by omega
    rw [hend, attributesLoop_end]
    exact ⟨fun _ => rfl, nofun⟩
  | @object mem content used objects hne hturn hle hrest ih =>
    have hpos := turnAt_object_pos hlocal hturn
    rw [attributesLoop_turn (by have := List.length_pos_iff.mpr hne; omega), hmem, hturn]
    constructor
    · intro hnil
      cases hnil
    · intro first rest hcons
      cases hcons
      refine ⟨string + used, by omega, by omega, ?_, rfl⟩
      rw [← List.drop_drop, hmem]
      exact hrest
  | @pass mem n objects hne hturn hle hrest ih =>
    have hpos := turnAt_pass_pos hlocal hturn
    have hdrop := List.length_drop (l := mem) (i := n)
    have hmemPos := List.length_pos_iff.mpr hne
    obtain ⟨fuel, rfl⟩ := Nat.exists_eq_add_one.mpr (show 0 < fuel by omega)
    rw [attributesLoop_turn (by omega), hmem, hturn]
    dsimp only
    obtain ⟨hnil, hcons⟩ := ih (by rw [← List.drop_drop, hmem]) (by omega) (by omega) fuel
      (by omega)
    refine ⟨hnil, fun content rest hobjects => ?_⟩
    obtain ⟨next, hnext, hbound, hwalked, hcall⟩ := hcons content rest hobjects
    exact ⟨next, by omega, hbound, hwalked, hcall⟩

theorem helper_at_end {ptr : Nat} {newNid : Nid} (h : Walked A (der.drop ptr) [])
    (hptr : ptr ≤ der.length) :
    estGetAttributesHelper A der (cursorAt der ptr newNid) = (.none, cursorAt der ptr newNid) := by
  apply (attributesLoop_walked hlocal h rfl hptr _).1 rfl
  rw [List.length_drop]
  unfold cursorAt
  dsimp only
  omega

theorem helper_at_object {ptr : Nat} {newNid : Nid} {content : Bytes} {rest : List Bytes}
    (h : Walked A (der.drop ptr) (content :: rest)) (hptr : ptr ≤ der.length) :
    ∃ next, ptr < next ∧ next ≤ der.length ∧ Walked A (der.drop next) rest ∧
      estGetAttributesHelper A der (cursorAt der ptr newNid) =
        (.none, cursorAt der next (A.obj2nid content)) := by
  apply (attributesLoop_walked hlocal h rfl hptr _).2 content rest rfl
  rw [List.length_drop]
  unfold cursorAt
  dsimp only
  omega

end Calls

section Runs

variable (hlocal : A.Local)
include hlocal

/-- After some calls, the walk from where the caller stands meets the identifiers that
have not been handed out. -/
theorem helperCalls_state {objects : List Bytes} (h : Walked A der objects) (newNid : Nid)
    (i : Nat) : ∃ ptr nid, ptr ≤ der.length ∧ Walked A (der.drop ptr) (objects.drop i) ∧
      helperCalls A der (cursorAt der 0 newNid) i = (.none, cursorAt der ptr nid) := by
  induction i with
  | zero => exact ⟨0, newNid, Nat.zero_le _, h, rfl⟩
  | succ i ih =>
    obtain ⟨ptr, nid, hptr, hwalked, hcalls⟩ := ih
    rw [helperCalls, hcalls, ← List.drop_drop]
    cases hdrop : objects.drop i with
    | nil =>
      rw [hdrop] at hwalked
      exact ⟨ptr, nid, hptr, hwalked, helper_at_end hlocal hwalked hptr⟩
    | cons content rest =>
      rw [hdrop] at hwalked
      obtain ⟨next, -, hnext, hrest, hcall⟩ := helper_at_object hlocal hwalked hptr
      exact ⟨next, A.obj2nid content, hnext, hrest, hcall⟩

private theorem helperCalls_object {objects : List Bytes} (h : Walked A der objects)
    (newNid : Nid) {i : Nat} (hi : i < objects.length) :
    (helperCalls A der (cursorAt der 0 newNid) (i + 1)).1 = .none ∧
      (helperCalls A der (cursorAt der 0 newNid) (i + 1)).2.newNid = A.obj2nid objects[i] ∧
      (helperCalls A der (cursorAt der 0 newNid) (i + 1)).2.derLen <
        (helperCalls A der (cursorAt der 0 newNid) i).2.derLen := by
  obtain ⟨ptr, nid, hptr, hwalked, hcalls⟩ := helperCalls_state hlocal h newNid i
  rw [List.drop_eq_getElem_cons hi] at hwalked
  obtain ⟨next, hlt, hnext, -, hcall⟩ := @helper_at_object A der hlocal ptr nid _ _ hwalked hptr
  rw [helperCalls, hcalls, hcall]
  refine ⟨rfl, rfl, ?_⟩
  unfold cursorAt
  dsimp only
  omega

theorem handsOut_walked {objects : List Bytes} (h : Walked A der objects) (newNid : Nid) :
    HandsOut A der objects newNid where
  succeeds _ hi := (helperCalls_object hlocal h newNid hi).1
  nid _ hi := (helperCalls_object hlocal h newNid hi).2.1
  decreases _ hi := (helperCalls_object hlocal h newNid hi).2.2

/-- Once all are handed out, a call changes nothing and reports no error. -/
theorem helperCalls_past {objects : List Bytes} (h : Walked A der objects) (newNid : Nid)
    (n : Nat) : helperCalls A der (cursorAt der 0 newNid) (objects.length + n) =
      (.none, (helperCalls A der (cursorAt der 0 newNid) objects.length).2) := by
  induction n with
  | zero =>
    obtain ⟨ptr, nid, -, -, hcalls⟩ := helperCalls_state hlocal h newNid objects.length
    rw [Nat.add_zero, hcalls]
  | succ n ih =>
    obtain ⟨ptr, nid, hptr, hwalked, hcalls⟩ := helperCalls_state hlocal h newNid objects.length
    rw [List.drop_length] at hwalked
    rw [← Nat.add_assoc, helperCalls, ih, hcalls]
    exact helper_at_end hlocal hwalked hptr

/-- The iteration hands out what the sanity test meets, in order and with less left each
time, but it does not tell its end: every later call reports success again. -/
theorem attribute_iteration_never_complete {found : Bool}
    (h : estAsn1SanityTest A der = (.none, found)) (newNid : Nid) :
    (∀ objects, Walked A der objects → ¬ IterationComplete A der objects newNid) ∧
    ∃ objects, Walked A der objects ∧ HandsOut A der objects newNid ∧
      ∀ n, helperCalls A der (cursorAt der 0 newNid) (objects.length + n) =
        (.none, (helperCalls A der (cursorAt der 0 newNid) objects.length).2) := by
  obtain ⟨-, objects, hwalked, -, -⟩ := (estAsn1SanityTest_none_iff hlocal).mp h
  constructor
  · intro others hothers hcomplete
    have hends := hcomplete.ends
    rw [helperCalls_past hlocal hothers newNid 1] at hends
    cases hends
  · exact ⟨objects, hwalked, handsOut_walked hlocal hwalked newNid,
      helperCalls_past hlocal hwalked newNid⟩

omit hlocal

/-- The list with the challenge password only. -/
def popDer : Bytes := popHeader 11 ++ hexChpw

theorem popDer_accepted : estAsn1SanityTest hostAsn1 popDer = (.none, true) := by
  decide +kernel

theorem attribute_iteration_never_complete_pop :
    (∀ objects, Walked hostAsn1 popDer objects → ¬ IterationComplete hostAsn1 popDer objects 0) ∧
    ∃ objects, Walked hostAsn1 popDer objects ∧ HandsOut hostAsn1 popDer objects 0 ∧
      ∀ n, helperCalls hostAsn1 popDer (cursorAt popDer 0 0) (objects.length + n) =
        (.none, (helperCalls hostAsn1 popDer (cursorAt popDer 0 0) objects.length).2) :=
  attribute_iteration_never_complete hostAsn1_local popDer_accepted 0

/-- The second call finds nothing more, and says so in no way. -/
theorem attribute_iteration_silent_end :
    estAsn1SanityTest hostAsn1 popDer = (.none, true) ∧
    helperCalls hostAsn1 popDer (cursorAt popDer 0 0) 2 =
      (.none, { derPtr := 13, derLen := 0, newNid := nidChallengePassword }) ∧
    ¬ ∃ objects, Walked hostAsn1 popDer objects ∧ IterationComplete hostAsn1 popDer objects 0 := by
  refine ⟨popDer_accepted, by decide +kernel, ?_⟩
  intro h
  obtain ⟨objects, hwalked, hcomplete⟩ := h
  have hends := hcomplete.ends
  rw [helperCalls_past hostAsn1_local hwalked 0 1] at hends
  cases hends

end Runs

end LibEst.Server.AttrIteration
