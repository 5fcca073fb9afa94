import LibEst.Client.ChallengeTokens
import LibEst.Client.Reference

/-! The challenge of a server: what its text says about the realm and the nonce, what
the client takes from it, and when the two agree. -/
namespace LibEst.Client.Challenge

open LibEst.Base64 LibEst.Lib.ByteString LibEst.Server.AuthHeader
open LibEst.Client.Context LibEst.Client.Http LibEst.Client.Reference
open LibEst.Client.FieldScan LibEst.Client.ChallengeTokens

section Memory

/-- The headers of an answer, with the challenge read over the memory of its value. -/
def estIoParseHttpAuthRequestIn (ctx : ClientCtx) (hdrs : List HttpHeader) : Option ClientCtx :=
  match hdrs.find? fun hdr => (ascii "WWW-Authenticate").isPrefixOf hdr.name with
  | none => some { ctx with authMode := .fail }
  | some hdr =>
      match challengeMode hdr.value with
      | none => some { ctx with authMode := .fail }
      | some mode =>
          match estIoParseAuthTokensIn ctx hdr.value with
          | none => none
          | some ((valid, parsed), _) =>
              some { parsed with authMode := if valid then mode else .fail }

/-- Inside of the memory it comes to what the text functions have. -/
theorem estIoParseHttpAuthRequestIn_text {ctx ctx' : ClientCtx} {hdrs : List HttpHeader}
    (hzero : ∀ hdr ∈ hdrs, (0 : UInt8) ∉ hdr.value)
    (h : estIoParseHttpAuthRequestIn ctx hdrs = some ctx') :
    estIoParseHttpAuthRequest ctx hdrs = ctx' := by
  unfold estIoParseHttpAuthRequestIn at h
  unfold estIoParseHttpAuthRequest
  cases hfind : hdrs.find? fun hdr => (ascii "WWW-Authenticate").isPrefixOf hdr.name with
  | none =>
    simp only [hfind] at h ⊢
    exact Option.some.inj h
  | some hdr =>
    simp only [hfind] at h ⊢
    cases hmode : challengeMode hdr.value with
    | none =>
      simp only [hmode] at h ⊢
      exact Option.some.inj h
    | some mode =>
      simp only [hmode] at h ⊢
      cases hrun : estIoParseAuthTokensIn ctx hdr.value with
      | none =>
        rw [hrun] at h
        cases h
      | some run =>
        rw [hrun] at h
        rw [estIoParseAuthTokensIn_text (hzero hdr (List.mem_of_find?_eq_some hfind)) hrun]
        exact Option.some.inj h

end Memory

section Declared

/-- The value of a header is a string. -/
structure HeaderValue where
  text : Bytes
  zeroFree : (0 : UInt8) ∉ text

/-- The parameters that a client keeps. -/
inductive Key where
  | realm
  | nonce
  deriving DecidableEq

def Key.name : Key → String
  | .realm => "realm"
  | .nonce => "nonce"

def Key.max : Key → Nat
  | .realm => maxRealm
  | .nonce => maxNonce

def Key.kept (ctx : ClientCtx) : Key → Bytes
  | .realm => ctx.realm
  | .nonce => ctx.sNonce

/-- A backslash stands for the character behind it. -/
def unescape : Bytes → Bytes
  | [] => []
  | [c] => [c]
  | c :: d :: rest => if c = 92 then d :: unescape rest else c :: unescape (d :: rest)

/-- What a field stands for: between quotes, the text without its escapes. -/
def content (field : Item) : Bytes := if field.quoted then unescape field.text else field.text

/-- An equals sign stands before the field, and nothing else but white space. -/
def assigned (field : Item) : Bool := field.before.filter (fun c => ¬ isspace c) = [61]

/-- The parameters: a token that is not a value itself, an equals sign, and a value. -/
def assignments : List Item → List (Item × Item)
  | name :: value :: rest =>
      if ¬ name.quoted ∧ ¬ assigned name ∧ assigned value then
        (name, value) :: assignments (value :: rest)
      else assignments (value :: rest)
  | _ => []

variable (value : HeaderValue)

/-- The values of a parameter, behind the name of the scheme. -/
def HeaderValue.parameters (key : Key) : List Item :=
  ((assignments (fields value.text).1.tail).filter fun a =>
    a.1.text.map tolower = ascii key.name).map Prod.snd

/-- A parameter is there, closed, and short enough to be kept. -/
def HeaderValue.WellFormed (key : Key) : Prop :=
  value.parameters key ≠ [] ∧
    ∀ field ∈ value.parameters key, field.closed ∧ (content field).length ≤ key.max

/-- A text is exactly what the parameter says. -/
def HeaderValue.Gives (key : Key) (text : Bytes) : Prop :=
  value.parameters key ≠ [] ∧ ∀ field ∈ value.parameters key, content field = text

instance (key : Key) : Decidable (value.WellFormed key) := inferInstanceAs (Decidable (_ ∧ _))

instance (key : Key) (text : Bytes) : Decidable (value.Gives key text) :=
  inferInstanceAs (Decidable (_ ∧ _))

/-- A digest needs the nonce too. -/
def HeaderValue.keys : List Key :=
  if challengeMode value.text = some .digest then [.realm, .nonce] else [.realm]

/-- The first challenge among the headers. -/
def HeaderValue.IsIn (hdrs : List HttpHeader) : Prop :=
  ∃ hdr, (hdrs.find? fun hdr => (ascii "WWW-Authenticate").isPrefixOf hdr.name) = some hdr ∧
    hdr.value = value.text

/-- What is promised of a challenge, whatever the context is and whatever other headers
there are. -/
structure HeaderValue.Handled : Prop where
  inside : ∀ ctx, estIoParseAuthTokensIn ctx value.text ≠ none
  names : ∀ ctx result names, estIoParseAuthTokensIn ctx value.text = some (result, names) →
    ∀ field ∈ names, field.quoted = false
  faithful : ∀ ctx ctx' hdrs, value.IsIn hdrs → estIoParseHttpAuthRequestIn ctx hdrs = some ctx' →
    ctx'.authMode ∈ [.basic, .digest, .token] →
      ∀ key ∈ value.keys, value.Gives key (key.kept ctx')
  refused : ∀ ctx ctx' hdrs, value.IsIn hdrs → estIoParseHttpAuthRequestIn ctx hdrs = some ctx' →
    (∃ key ∈ value.keys, ¬ value.WellFormed key) → ctx'.authMode = .fail ∧ ctx'.sNonce = []

end Declared

section Read

/-- The last field behind the name of the parameter, by position. -/
def Key.taken (p : Pairing) : Key → Option Bytes
  | .realm => p.realm
  | .nonce => p.nonce

/-- The reading by position stays inside, takes no quoted field for a name, and comes to
what the parameters say where it does not refuse the challenge. -/
def HeaderValue.Readable (value : HeaderValue) : Prop :=
  let p := challenge value.text
  p.finish ≠ .outside ∧ (∀ field ∈ p.names, field.quoted = false) ∧
    if challengeMode value.text = none then ∀ key ∈ value.keys, value.WellFormed key
    else p.finish = .refused ∨ ∀ key ∈ value.keys, value.WellFormed key ∧
      ∃ text ∈ key.taken p, value.Gives key (text.take key.max)

instance (value : HeaderValue) : Decidable value.Readable :=
  inferInstanceAs (Decidable (_ ∧ _ ∧ _))

variable {value : HeaderValue} {ctx : ClientCtx} {hdrs : List HttpHeader}

theorem challengeMode_cases {text : Bytes} {mode : AuthMode} (h : challengeMode text = some mode) :
    mode ∈ [AuthMode.basic, .digest, .token] := by
  unfold challengeMode at h
  split_ifs at h <;> cases h <;> decide

theorem run_outside (h : (challenge value.text).finish = .outside) :
    estIoParseAuthTokensIn ctx value.text = none := by
  rw [estIoParseAuthTokensIn_fields value.zeroFree, Pairing.run, h]

theorem run_names {result : TokenResult} {names : List Field}
    (h : estIoParseAuthTokensIn ctx value.text = some (result, names)) :
    names = (challenge value.text).names := by
  rw [estIoParseAuthTokensIn_fields value.zeroFree, Pairing.run] at h
  split at h
  · cases h
    rfl
  · cases h
    rfl
  · cases h

theorem isSome_run (h : (challenge value.text).finish ≠ .outside) :
    ∃ result, estIoParseAuthTokensIn ctx value.text =
      some (result, (challenge value.text).names) := by
  rw [estIoParseAuthTokensIn_fields value.zeroFree, Pairing.run]
  split
  · exact ⟨_, rfl⟩
  · exact ⟨_, rfl⟩
  · rename_i hfinish
    exact absurd hfinish h

theorem request_unsupported (hin : value.IsIn hdrs) (hmode : challengeMode value.text = none) :
    estIoParseHttpAuthRequestIn ctx hdrs = some { ctx with authMode := .fail } := by
  obtain ⟨hdr, hfind, hvalue⟩ := hin
  simp only [estIoParseHttpAuthRequestIn, hfind, hvalue, hmode]

theorem request_refused (hin : value.IsIn hdrs) (hmode : challengeMode value.text ≠ none)
    (hfinish : (challenge value.text).finish = .refused) :
    estIoParseHttpAuthRequestIn ctx hdrs =
      some { (challenge value.text).stored ctx with sNonce := [], authMode := .fail } := by
  obtain ⟨hdr, hfind, hvalue⟩ := hin
  obtain ⟨mode, hmode⟩ := Option.ne_none_iff_exists'.mp hmode
  simp only [estIoParseHttpAuthRequestIn, hfind, hvalue, hmode,
    estIoParseAuthTokensIn_fields value.zeroFree, Pairing.run, hfinish, invalid,
    Bool.false_eq_true, if_false]

theorem request_complete (hin : value.IsIn hdrs) {mode : AuthMode}
    (hmode : challengeMode value.text = some mode)
    (hfinish : (challenge value.text).finish = .complete) :
    estIoParseHttpAuthRequestIn ctx hdrs =
      some { (challenge value.text).stored ctx with authMode := mode } := by
  obtain ⟨hdr, hfind, hvalue⟩ := hin
  simp only [estIoParseHttpAuthRequestIn, hfind, hvalue, hmode,
    estIoParseAuthTokensIn_fields value.zeroFree, Pairing.run, hfinish, if_true]

/-- A challenge fails, and wipes the nonce unless the scheme is another; or it comes to
what has been taken. -/
theorem request_cases {ctx' : ClientCtx} (hinside : (challenge value.text).finish ≠ .outside)
    (hin : value.IsIn hdrs) (h : estIoParseHttpAuthRequestIn ctx hdrs = some ctx') :
    (ctx'.authMode = .fail ∧ (challengeMode value.text = none ∨ ctx'.sNonce = [])) ∨
      ∃ mode, challengeMode value.text = some mode ∧ (challenge value.text).finish = .complete ∧
        ctx' = { (challenge value.text).stored ctx with authMode := mode } := by
  cases hmode : challengeMode value.text with
  | none =>
    rw [request_unsupported hin hmode] at h
    cases h
    exact Or.inl ⟨rfl, Or.inl rfl⟩
  | some mode =>
    cases hfinish : (challenge value.text).finish with
    | outside => exact absurd hfinish hinside
    | refused =>
      rw [request_refused hin (by simp [hmode]) hfinish] at h
      cases h
      exact Or.inl ⟨rfl, Or.inr rfl⟩
    | complete =>
      rw [request_complete hin hmode hfinish] at h
      cases h
      exact Or.inr ⟨mode, rfl, rfl, rfl⟩

/-- What is kept is the last value taken, cut, and else what the context has. -/
theorem kept_stored (key : Key) (p : Pairing) (mode : AuthMode) :
    key.kept { p.stored ctx with authMode := mode } =
      ((key.taken p).map (·.take key.max)).getD (key.kept ctx) := by
  cases key <;> rfl

theorem isIn_alone (value : HeaderValue) :
    value.IsIn [⟨ascii "WWW-Authenticate", value.text⟩] :=
  ⟨_, List.find?_cons_of_pos (List.isPrefixOf_iff_prefix.mpr (List.prefix_refl _)), rfl⟩

theorem HeaderValue.Gives.eq {key : Key} {a b : Bytes} (ha : value.Gives key a) (hb : value.Gives key b) :
    a = b := by
  obtain ⟨field, hfield⟩ := List.exists_mem_of_ne_nil _ ha.1
  exact (ha.2 field hfield).symm.trans (hb.2 field hfield)

/-- A value that has been taken can only be what was given if it was taken from there. -/
theorem taken_of_faithful {key : Key} {mode : AuthMode} {p : Pairing}
    (h : ∀ ctx, value.Gives key (key.kept { p.stored ctx with authMode := mode })) :
    ∃ text ∈ key.taken p, value.Gives key (text.take key.max) := by
  cases htaken : key.taken p with
  | some text =>
    have hgives := h hostCtx
    rw [kept_stored, htaken] at hgives
    exact ⟨text, rfl, hgives⟩
  | none =>
    let filled (text : Bytes) : ClientCtx := { hostCtx with realm := text, sNonce := text }
    have hkept (text : Bytes) : value.Gives key text := by
      have hgives := h (filled text)
      rw [kept_stored, htaken] at hgives
      cases key <;> exact hgives
    exact absurd ((hkept []).eq (hkept [0])) (by decide)

theorem HeaderValue.Handled.readable (h : value.Handled) : value.Readable := by
  have hinside : (challenge value.text).finish ≠ .outside :=
    fun houtside => h.inside hostCtx (run_outside houtside)
  refine ⟨hinside, ?_, ?_⟩
  · obtain ⟨result, hrun⟩ := @isSome_run value hostCtx hinside
    exact h.names hostCtx result _ hrun
  · cases hmode : challengeMode value.text with
    | none =>
      rw [if_pos rfl]
      intro key hkey
      by_contra hmalformed
      let ctx : ClientCtx := { hostCtx with sNonce := [0] }
      have hleft := (h.refused ctx _ _ (isIn_alone value)
        (request_unsupported (isIn_alone value) hmode) ⟨key, hkey, hmalformed⟩).2
      cases hleft
    | some mode =>
      rw [if_neg nofun]
      cases hfinish : (challenge value.text).finish with
      | outside => exact absurd hfinish hinside
      | refused => exact Or.inl rfl
      | complete =>
        right
        intro key hkey
        have hanswer (ctx : ClientCtx) :=
          @request_complete value ctx _ (isIn_alone value) mode hmode hfinish
        have hsupported := challengeMode_cases hmode
        constructor
        · by_contra hmalformed
          have hfail := (h.refused hostCtx _ _ (isIn_alone value) (hanswer hostCtx)
            ⟨key, hkey, hmalformed⟩).1
          dsimp only at hfail
          rw [hfail] at hsupported
          exact absurd hsupported (by decide)
        · apply taken_of_faithful
          intro ctx
          exact h.faithful ctx _ _ (isIn_alone value) (hanswer ctx) hsupported key hkey

theorem HeaderValue.Readable.handled (h : value.Readable) : value.Handled := by
  obtain ⟨hinside, hnames, hread⟩ := h
  refine ⟨fun ctx => ?_, fun ctx result names hrun => ?_, ?_, ?_⟩
  · obtain ⟨result, hrun⟩ := @isSome_run value ctx hinside
    rw [hrun]
    exact Option.some_ne_none _
  · rw [run_names hrun]
    exact hnames
  · intro ctx ctx' hdrs hin hrequest hsupported key hkey
    rcases request_cases hinside hin hrequest with ⟨hfail, -⟩ | ⟨mode, hmode, hfinish, rfl⟩
    · rw [hfail] at hsupported
      exact absurd hsupported (by decide)
    · rw [if_neg (by simp [hmode]), hfinish] at hread
      obtain ⟨text, htaken, hgives⟩ := (hread.resolve_left nofun key hkey).2
      rw [kept_stored, htaken]
      exact hgives
  · rintro ctx ctx' hdrs hin hrequest ⟨key, hkey, hmalformed⟩
    rcases request_cases hinside hin hrequest with ⟨hfail, hwiped⟩ | ⟨mode, hmode, hfinish, rfl⟩
    · refine ⟨hfail, hwiped.resolve_left fun hmode => ?_⟩
      rw [if_pos hmode] at hread
      exact hmalformed (hread key hkey)
    · rw [if_neg (by simp [hmode]), hfinish] at hread
      exact absurd (hread.resolve_left nofun key hkey).1 hmalformed

/-- Every challenge is handled as promised exactly where it is read that way. -/
theorem challenge_handled_iff (value : HeaderValue) : value.Handled ↔ value.Readable :=
  ⟨HeaderValue.Handled.readable, HeaderValue.Readable.handled⟩

example : HeaderValue.Readable ⟨ascii "Digest realm=\"ca\", nonce=\"1f\"", by decide⟩ := by
  decide

/-- The scanner steps over the zero behind a comment that stays open. -/
theorem open_comment_not_handled :
    ¬ HeaderValue.Handled ⟨ascii "Digest realm=\"ca\" (", by decide⟩ := by
  intro h
  have hopen : (challenge (ascii "Digest realm=\"ca\" (")).finish = .outside := by decide
  exact h.inside hostCtx (run_outside hopen)

end Read

end LibEst.Client.Challenge
