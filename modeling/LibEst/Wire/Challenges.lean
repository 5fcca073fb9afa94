import LibEst.Client.DigestRoundTrip
import LibEst.Wire.Message

/-! The challenge of a server token by token: what the client has from it of the realm
and the nonce. -/
namespace LibEst.Wire.Challenges

open LibEst.Basic LibEst.Base64 LibEst.Lib.ByteString LibEst.Lib.Loop LibEst.SafeStr
open LibEst.Server.AuthHeader LibEst.Client.Context LibEst.Client.Http
open LibEst.Client.DigestRoundTrip (Quotable quote backslash)
open LibEst.Client.KeygenRoundTrip (not_mem_decimal)
open LibEst.Wire.Message

section Tokens

variable {front word text rest : Bytes}

/-- A text between quotation marks is read back where it has none in it and does not
end with an escape. -/
theorem quotedField_quotable (h : Quotable text) (rest : Bytes) :
    quotedField quote (text ++ quote :: rest) = (text, rest) := by
  induction hlength : text.length using Nat.strongRecOn generalizing text with
  | ind n ih =>
    cases text with
    | nil =>
      cases rest with
      | nil => rfl
      | cons d rest => rfl
    | cons c text =>
      have hc : c ≠ quote := fun heq => h.unquoted (heq ▸ List.mem_cons_self)
      rw [List.length_cons] at hlength
      by_cases hescape : c = 92
      · -- the escaped character is part of the text, for the text does not end here
        cases text with
        | nil => exact absurd (by rw [hescape]; rfl) h.closed
        | cons d text =>
          have htail : Quotable text := by
            refine ⟨fun hmem => h.unquoted (by simp [hmem]), fun hlast => h.closed ?_⟩
            rw [List.getLast?_cons, List.getLast?_cons, hlast]
            rfl
          rw [List.length_cons] at hlength
          have hrest := ih text.length (by omega) htail rfl
          show quotedField quote (c :: d :: (text ++ quote :: rest)) = _
          rw [quotedField, if_neg hc, if_pos hescape, hrest]
      · have htail : Quotable text := by
          refine ⟨fun hmem => h.unquoted (by simp [hmem]), fun hlast => h.closed ?_⟩
          rw [List.getLast?_cons, hlast]
          rfl
        have hrest := ih text.length (by omega) htail rfl
        cases text with
        | nil =>
          show quotedField quote (c :: quote :: rest) = _
          rw [quotedField, if_neg hc, if_neg hescape]
          rw [List.nil_append] at hrest
          rw [hrest]
        | cons d text =>
          show quotedField quote (c :: d :: (text ++ quote :: rest)) = _
          rw [quotedField, if_neg hc, if_neg hescape]
          rw [List.cons_append] at hrest
          rw [hrest]

theorem dropWhile_separators (hfront : ∀ c ∈ front, isFieldSeparator c = true) {c : UInt8}
    (hc : isFieldSeparator c = false) (text : Bytes) :
    (front ++ c :: text).dropWhile isFieldSeparator = c :: text := by
  rw [List.dropWhile_append_of_pos hfront, List.dropWhile_cons_of_neg (by rw [hc]; exact Bool.false_ne_true)]

theorem htNextField_quoted (hfront : ∀ c ∈ front, isFieldSeparator c = true) (h : Quotable text)
    (rest : Bytes) :
    htNextField (front ++ quote :: (text ++ quote :: rest)) = some (text, rest) := by
  apply loopTotal_stop
  unfold fieldTurn
  rw [dropWhile_separators hfront (by decide)]
  dsimp only
  rw [if_pos (show quote = 34 from rfl)]
  exact congrArg (fun r => Turn.stop (some r)) (quotedField_quotable h rest)

/-- A word that stands on its own, and the character that ends it. -/
structure IsWord (word : Bytes) : Prop where
  plain : ∀ c ∈ word, isFieldSeparator c = false
  opens : ∃ c tail, word = c :: tail ∧ c ≠ 34 ∧ c ≠ 60 ∧ c ≠ 40

theorem htNextField_word (hfront : ∀ c ∈ front, isFieldSeparator c = true) (h : IsWord word)
    {d : UInt8} (hd : isFieldSeparator d = true) (rest : Bytes) :
    htNextField (front ++ (word ++ d :: rest)) = some (word, rest) := by
  obtain ⟨c, tail, hword, hquote, hangle, hbracket⟩ := h.opens
  have hplain := h.plain
  subst hword
  have htail : ∀ e ∈ tail, decide (¬ isFieldSeparator e = true) = true := by
    intro e he
    have hseparator := hplain e (List.mem_cons_of_mem c he)
    simp [hseparator]
  apply loopTotal_stop
  unfold fieldTurn
  rw [List.cons_append, dropWhile_separators hfront (hplain c List.mem_cons_self)]
  dsimp only
  rw [if_neg hquote, if_neg hangle, if_neg hbracket, List.span_eq_takeWhile_dropWhile,
    List.takeWhile_append_of_pos htail, List.dropWhile_append_of_pos htail,
    List.takeWhile_cons_of_neg (by simp [hd]), List.dropWhile_cons_of_neg (by simp [hd]),
    List.append_nil]
  rfl

theorem noSeparators : ∀ c ∈ ([] : Bytes), isFieldSeparator c = true := by simp

theorem separators : ∀ c ∈ ([44, 32] : Bytes), isFieldSeparator c = true := by decide

theorem htNextField_nil : htNextField [] = none := loopTotal_stop _ rfl

end Tokens

section Values

variable {ctx : ClientCtx} {front realm rest : Bytes}

/-- The client behind the tokens of a text. -/
def readTokens (ctx : ClientCtx) (text : Bytes) : TokenResult :=
  loopTotal tokenTurn (fun s => s.2.length) tokenTurn_shrinks (ctx, text)

theorem readTokens_nil (ctx : ClientCtx) : readTokens ctx [] = (true, ctx) := by
  apply loopTotal_stop
  rw [tokenTurn, htNextField_nil]

/-- A name with a value in quotation marks. -/
def assigned (name : String) (value rest : Bytes) : Bytes :=
  ascii name ++ 61 :: quote :: (value ++ quote :: rest)

theorem assigned_word {name : String} (hfront : ∀ c ∈ front, isFieldSeparator c = true)
    (hname : IsWord (ascii name)) (value rest : Bytes) :
    htNextField (front ++ assigned name value rest) =
      some (ascii name, quote :: (value ++ quote :: rest)) :=
  htNextField_word hfront hname (by decide) _

theorem assigned_value {value : Bytes} (h : Quotable value) (rest : Bytes) :
    htNextField (quote :: (value ++ quote :: rest)) = some (value, rest) :=
  htNextField_quoted noSeparators h rest

theorem readTokens_realm (hfront : ∀ c ∈ front, isFieldSeparator c = true) (h : Quotable realm)
    (hsize : realm.length ≤ maxRealm) :
    readTokens ctx (front ++ assigned "realm" realm rest) =
      readTokens { ctx with realm := realm } rest := by
  apply loopTotal_more
  rw [tokenTurn, assigned_word hfront ⟨by decide, 114, ascii "ealm", by decide⟩]
  dsimp only
  rw [if_pos (by decide), withValue, assigned_value h]
  dsimp only
  rw [List.take_of_length_le hsize]

theorem readTokens_nonce {nonce : Bytes} (hfront : ∀ c ∈ front, isFieldSeparator c = true)
    (h : Quotable nonce) (hsize : nonce.length ≤ maxNonce) :
    readTokens ctx (front ++ assigned "nonce" nonce rest) =
      readTokens { ctx with sNonce := nonce } rest := by
  apply loopTotal_more
  rw [tokenTurn, assigned_word hfront ⟨by decide, 110, ascii "once", by decide⟩]
  dsimp only
  rw [if_neg (by decide), if_pos (by decide), withValue, assigned_value h]
  dsimp only
  rw [List.take_of_length_le hsize]

theorem readTokens_qop {qop : Bytes} (hfront : ∀ c ∈ front, isFieldSeparator c = true)
    (h : Quotable qop) :
    readTokens ctx (front ++ assigned "qop" qop rest) = readTokens ctx rest := by
  apply loopTotal_more
  rw [tokenTurn, assigned_word hfront ⟨by decide, 113, ascii "op", by decide⟩]
  dsimp only
  rw [if_neg (by decide), if_neg (by decide), if_pos (by decide), withValue, assigned_value h]

end Values

section Challenges

variable {mode : AuthMode} {realm : Bytes} {now : Nat}

/-- What a server writes behind the name of the header. -/
def challengeValue (mode : AuthMode) (realm : Bytes) (now : Nat) : Bytes :=
  match mode with
  | .basic => ascii "Basic" ++ 32 :: assigned "realm" realm []
  | .digest =>
      ascii "Digest" ++ 32 :: assigned "qop" (ascii "auth")
        ([44, 32] ++ assigned "realm" realm ([44, 32] ++ assigned "nonce" (decimal now) []))
  | .token => ascii "Bearer" ++ 32 :: assigned "realm" realm []
  | _ => []

/-- The modes that there is a challenge for. -/
def Challenging (mode : AuthMode) : Prop := mode = .basic ∨ mode = .digest ∨ mode = .token

/-- The client once it has taken up a challenge. -/
def challengedBy (ctx : ClientCtx) (mode : AuthMode) (realm : Bytes) (now : Nat) : ClientCtx :=
  { ctx with
    authMode := mode
    realm := realm
    sNonce := if mode = .digest then decimal now else ctx.sNonce }

/-- A realm and a nonce that arrive as they are. -/
structure Plain (realm : Bytes) (now : Nat) : Prop where
  quotable : Quotable realm
  line : ∀ c ∈ realm, LibEst.Client.ResponseText.LineByte c
  size : realm.length ≤ maxRealm
  nonce : now < 2 ^ 64

theorem parseAuthTokens_challenge (ctx : ClientCtx) (h : Plain realm now) (hmode : Challenging mode) :
    estIoParseAuthTokens ctx (challengeValue mode realm now) =
      (true, { challengedBy ctx mode realm now with authMode := ctx.authMode }) := by
  have hscheme {scheme : Bytes} (hword : IsWord scheme) (rest : Bytes) :
      estIoParseAuthTokens ctx (scheme ++ 32 :: rest) = readTokens ctx rest := by
    have hfield := htNextField_word noSeparators hword (d := 32) (by decide) rest
    rw [List.nil_append] at hfield
    unfold estIoParseAuthTokens
    rw [hfield]
    rfl
  have hrealm : readTokens ctx (assigned "realm" realm []) = (true, { ctx with realm := realm }) := by
    have hread : readTokens ctx ([] ++ assigned "realm" realm []) = _ :=
      readTokens_realm noSeparators h.quotable h.size
    rw [List.nil_append, readTokens_nil] at hread
    exact hread
  rcases hmode with rfl | rfl | rfl
  · exact (hscheme ⟨by decide, 66, ascii "asic", by decide⟩ _).trans hrealm
  · have hnonce := (LibEst.Client.DigestRoundTrip.decimal_field h.nonce).1
    have hauth : Quotable (ascii "auth") := ⟨by decide, by decide⟩
    refine (hscheme ⟨by decide, 68, ascii "igest", by decide⟩ _).trans
      ((readTokens_qop noSeparators hauth).trans ?_)
    rw [readTokens_realm separators h.quotable h.size,
      readTokens_nonce separators hnonce.quotable hnonce.len, readTokens_nil]
    rfl
  · exact (hscheme ⟨by decide, 66, ascii "earer", by decide⟩ _).trans hrealm

theorem challengeMode_value (hmode : Challenging mode) :
    challengeMode (challengeValue mode realm now) = some mode := by
  rcases hmode with rfl | rfl | rfl <;> rfl

/-- The client takes the challenge up. -/
theorem parseHttpAuthRequest_challenge (ctx : ClientCtx) (h : Plain realm now) (hmode : Challenging mode)
    {hdrs : List HttpHeader}
    (hfound : hdrs.find? (fun hdr => (ascii "WWW-Authenticate").isPrefixOf hdr.name) =
      some ⟨ascii "WWW-Authenticate", challengeValue mode realm now⟩) :
    estIoParseHttpAuthRequest ctx hdrs = challengedBy ctx mode realm now := by
  unfold estIoParseHttpAuthRequest
  rw [hfound]
  dsimp only
  rw [challengeMode_value hmode]
  dsimp only
  rw [parseAuthTokens_challenge ctx h hmode]
  rfl

end Challenges

end LibEst.Wire.Challenges
