import LibEst.Basic
import LibEst.Base64

/-! Parsing of the Authorization header: the three schemes, and the parse that
the configured scheme and the header decide together. -/
namespace LibEst.Server.AuthHeader

open LibEst.Basic LibEst.Base64 LibEst.Lib.ByteString

inductive AuthMode where
  | none
  | basic
  | digest
  | token
  | fail
  deriving DecidableEq, Repr

/-- The credentials that the application gets to see. -/
structure AuthHdr where
  mode : AuthMode
  user : Option Bytes
  pwd : Option Bytes
  uri : Option Bytes
  cnonce : Option Bytes
  qop : Option Bytes
  nc : Option Bytes
  nonce : Option Bytes
  response : Option Bytes
  authToken : Option Bytes
  deriving DecidableEq, Repr

inductive AuthHdrResult where
  | good
  | missing
  | bad
  | ecaCsrCheckFail
  | ecaCsrParseFail
  | ecaErr
  deriving DecidableEq, Repr

def estCreateAh : AuthHdr where
  mode := .none
  user := none
  pwd := none
  uri := none
  cnonce := none
  qop := none
  nc := none
  nonce := none
  response := none
  authToken := none

def maxUidpwd : Nat := 255
def maxRealm : Nat := 255
def maxNonce : Nat := 64
def maxNc : Nat := 9
def maxQop : Nat := 10
def maxResponse : Nat := 64
def maxAuthTokenLen : Nat := 512
def maxAuthHdrLen : Nat := 256 + 128
def mgUidMax : Nat := 256

section Text

/-- The characters before the terminating zero. -/
def cString (memory : Bytes) : Bytes := memory.takeWhile (· ≠ 0)

theorem cString_eq_self {text : Bytes} (h : (0 : UInt8) ∉ text) : cString text = text := by
  apply List.takeWhile_eq_self_iff.mpr
  intro c hc
  apply decide_eq_true
  rintro rfl
  exact h hc

theorem cString_front {front : Bytes} (h : 0 ∉ front) (tail : Bytes) :
    cString (front ++ tail) = front ++ cString tail := by
  have hall : ∀ c ∈ front, decide (c ≠ 0) = true := by
    intro c hc
    rw [decide_eq_true_eq]
    exact fun hzero => h (hzero ▸ hc)
  exact List.takeWhile_append_of_pos hall

theorem cString_append_zero {text : Bytes} (h : 0 ∉ text) (beyond : Bytes) :
    cString (text ++ 0 :: beyond) = text := by
  rw [cString_front h]
  exact List.append_nil text

def strndup (memory : Bytes) (n : Nat) : Bytes := (cString memory).take n

theorem strndup_length_le (memory : Bytes) (n : Nat) : (strndup memory n).length ≤ n :=
  List.length_take_le _ _

def tolower (c : UInt8) : UInt8 := if 65 ≤ c ∧ c ≤ 90 then c + 32 else c

/-- `mg_strncasecmp(s1, s2, len) == 0` for a text without a zero in it. -/
def hasPrefixCase (text : Bytes) (literal : String) : Bool :=
  (text.take literal.length).map tolower = (ascii literal).map tolower

/-- The scan of `skip_quoted`: a word up to a delimiter that the quote character
does not stand before, and what is left, the delimiter included. A quote before a
delimiter, or at the end of the text, is dropped. -/
def scanWord (delimiters : Bytes) (quote : UInt8) (word : Bytes) : Bytes → Bytes × Bytes
  | [] => (if word.getLast? = some quote then word.dropLast else word, [])
  | c :: rest =>
      if c ∈ delimiters then
        if word.getLast? = some quote then
          scanWord delimiters quote (word.dropLast ++ [c]) rest
        else (word, c :: rest)
      else scanWord delimiters quote (word ++ [c]) rest

/-- The word, and the text behind the delimiter and the whitespace after it. -/
def skipQuoted (delimiters whitespace : Bytes) (quote : UInt8) (text : Bytes) : Bytes × Bytes :=
  match scanWord delimiters quote [] text with
  | (word, []) => (word, [])
  | (word, _ :: rest) => (word, rest.dropWhile (· ∈ whitespace))

theorem scanWord_length_le (delimiters : Bytes) (quote : UInt8) (word text : Bytes) :
    (scanWord delimiters quote word text).1.length + (scanWord delimiters quote word text).2.length ≤
      word.length + text.length := by
  induction text generalizing word with
  | nil =>
    rw [scanWord]
    split <;> simp
  | cons c rest ih =>
    rw [scanWord]
    split
    · split
      · have hrest := ih (word.dropLast ++ [c])
        simp only [List.length_append, List.length_dropLast, List.length_cons,
          List.length_nil] at hrest ⊢
        omega
      · simp
    · have hrest := ih (word ++ [c])
      simp only [List.length_append, List.length_cons, List.length_nil] at hrest ⊢
      omega

theorem skipQuoted_length_le (delimiters whitespace : Bytes) (quote : UInt8) (text : Bytes) :
    (skipQuoted delimiters whitespace quote text).1.length +
      (skipQuoted delimiters whitespace quote text).2.length ≤ text.length := by
  have hscan := scanWord_length_le delimiters quote [] text
  unfold skipQuoted
  split
  · rename_i word hword
    rw [hword] at hscan
    simpa using hscan
  · rename_i word c rest hword
    rw [hword] at hscan
    have hdrop := (List.dropWhile_suffix (l := rest) (· ∈ whitespace)).length_le
    simp only [List.length_nil, List.length_cons] at hscan ⊢
    omega

/-- A text without delimiters is one word. -/
theorem scanWord_plain {delimiters text : Bytes} {q d : UInt8} (hd : d ∈ delimiters)
    (htext : ∀ c ∈ text, c ∉ delimiters) (word rest : Bytes)
    (hlast : (word ++ text).getLast? ≠ some q) :
    scanWord delimiters q word (text ++ d :: rest) = (word ++ text, d :: rest) := by
  induction text generalizing word with
  | nil =>
    rw [List.append_nil] at hlast
    rw [List.nil_append, scanWord, if_pos hd, if_neg hlast, List.append_nil]
  | cons c text ih =>
    have hnext : (word ++ [c] ++ text).getLast? ≠ some q := by
      rw [List.append_assoc]
      exact hlast
    rw [List.cons_append, scanWord, if_neg (htext c (by simp)),
      ih (fun x hx => htext x (by simp [hx])) _ hnext, List.append_assoc]
    rfl

/-- Without a quote character, a word ends at the first delimiter. -/
theorem skipQuoted_plain {delimiters whitespace text : Bytes} {d : UInt8} (hd : d ∈ delimiters)
    (htext : ∀ c ∈ text, c ∉ delimiters) (hzero : (0 : UInt8) ∉ text) (rest : Bytes) :
    skipQuoted delimiters whitespace 0 (text ++ d :: rest) =
      (text, rest.dropWhile (· ∈ whitespace)) := by
  have hscan := scanWord_plain hd htext [] rest fun hlast => hzero (List.mem_of_getLast? hlast)
  rw [skipQuoted, hscan, List.nil_append]

end Text

section Schemes

variable (bioRead : BioRead)

/-- A user name, a colon and a password in base64. A text that begins with a
colon has a password only. -/
def mgParseAuthHdrBasic (authHeader : Bytes) (ah : AuthHdr) : AuthHdr :=
  let value := (authHeader.drop 6).dropWhile isspace
  let decoded := estBase64Decode bioRead value (maxUidpwd * 2 + 2)
  if decoded = [] ∨ maxUidpwd * 2 + 2 ≤ decoded.length then ah
  else
    let both := cString decoded
    match both.span (· ≠ 58) with
    | (_, []) => ah
    | ([], _ :: pwd) =>
        if 1 < decoded.length then
          { ah with pwd := some (strndup pwd maxUidpwd), mode := .basic }
        else ah
    | (user, _ :: pwd) =>
        { ah with
          user := some (strndup user maxUidpwd)
          pwd := some (strndup pwd maxUidpwd)
          mode := .basic }

/-- One `name=value` of a digest header. The names are compared over the length
of the literal only, in this order. -/
def digestField (name value : Bytes) (ah : AuthHdr) : AuthHdr :=
  if ascii "username" <+: name then { ah with user := some (strndup value maxUidpwd) }
  else if ascii "cnonce" <+: name then { ah with cnonce := some (strndup value maxNonce) }
  else if ascii "response" <+: name then { ah with response := some (strndup value maxResponse) }
  else if ascii "uri" <+: name then { ah with uri := some (strndup value maxRealm) }
  else if ascii "qop" <+: name then { ah with qop := some (strndup value maxQop) }
  else if ascii "nc" <+: name then { ah with nc := some (strndup value maxNc) }
  else if ascii "nonce" <+: name then { ah with nonce := some (strndup value maxNonce) }
  else ah

/-- The name and the value at the front of a text, and the rest: a value in
quotes may hold quoted delimiters, any other ends at a comma or a space. -/
def digestPair (text : Bytes) : Bytes × Bytes × Bytes :=
  let (name, text) := skipQuoted (ascii "=") (ascii " ") 0 (text.dropWhile isspace)
  match text with
  | 34 :: text =>
      let (value, text) := skipQuoted [34] (ascii " ") 92 text
      match text with
      | 44 :: text => (name, value, text)
      | _ => (name, value, text)
  | _ =>
      let (value, text) := skipQuoted (ascii ", ") (ascii " ") 0 text
      (name, value, text)

/-- The loop over the pairs ends at an empty name. Every round takes at least one
character, so the length of the text bounds the rounds. -/
def digestLoop : Nat → Bytes → AuthHdr → AuthHdr
  | 0, _, ah => ah
  | fuel + 1, text, ah =>
      let (name, value, rest) := digestPair text
      if name = [] then ah else digestLoop fuel rest (digestField name value ah)

private theorem digestPair_length_le (text : Bytes) :
    (digestPair text).1.length + (digestPair text).2.2.length ≤ text.length := by
  have hspace := (List.dropWhile_suffix (l := text) isspace).length_le
  have hname := skipQuoted_length_le (ascii "=") (ascii " ") 0 (text.dropWhile isspace)
  unfold digestPair
  simp only
  split
  · rename_i quoted htext
    have hvalue := skipQuoted_length_le [34] (ascii " ") 92 quoted
    rw [htext] at hname
    rw [List.length_cons] at hname
    split
    · rename_i after hafter
      rw [hafter] at hvalue
      rw [List.length_cons] at hvalue
      simp only
      omega
    · simp only
      omega
  · have hvalue := skipQuoted_length_le (ascii ", ") (ascii " ") 0
      (skipQuoted (ascii "=") (ascii " ") 0 (text.dropWhile isspace)).2
    simp only
    omega

/-- More rounds than characters change nothing. -/
theorem digestLoop_fuel {fuel more : Nat} {text : Bytes} (hfuel : text.length < fuel)
    (hmore : text.length < more) (ah : AuthHdr) :
    digestLoop fuel text ah = digestLoop more text ah := by
  induction fuel generalizing more text ah with
  | zero => omega
  | succ fuel ih =>
    cases more with
    | zero => omega
    | succ more =>
      have hlength := digestPair_length_le text
      simp only [digestLoop]
      split
      · rfl
      · rename_i hname
        have hpos := List.length_pos_iff.mpr hname
        have hrest : (digestPair text).2.2.length < text.length := by omega
        exact ih (Nat.lt_of_lt_of_le hrest (Nat.le_of_lt_succ hfuel))
          (Nat.lt_of_lt_of_le hrest (Nat.le_of_lt_succ hmore)) _

/-- The copy of the header on the stack. A header that fills it leaves no room
for the terminating zero, and the scan goes on into what lies behind. -/
def digestCopy (stack authHeader : Bytes) : Bytes :=
  let text := authHeader.drop 7
  if text.length < maxAuthHdrLen then text else text.take maxAuthHdrLen ++ cString stack

def mgParseAuthHdrDigest (stack authHeader : Bytes) (ah : AuthHdr) : AuthHdr :=
  let text := digestCopy stack authHeader
  digestLoop (text.length + 1) text { ah with mode := .digest }

def mgParseAuthHdrToken (authHeader : Bytes) (ah : AuthHdr) : AuthHdr :=
  let value := (authHeader.drop 6).dropWhile isspace
  let decoded := estBase64Decode bioRead value (maxAuthTokenLen * 2)
  if decoded = [] ∨ maxAuthTokenLen * 2 ≤ decoded.length then ah
  else if value = [] then ah
  else { ah with authToken := some (strndup decoded maxAuthTokenLen), mode := .token }

end Schemes

/-- The request as the parser sees it: the header, null if absent, and the stack
behind the parser's copy. -/
structure AuthSource where
  authorization : Option Bytes
  stack : Bytes
  deriving DecidableEq

/-- What the scheme of the header makes of it, null for a scheme that the server
is not configured for or does not know. -/
def parseScheme (bioRead : BioRead) (authMode : AuthMode) (stack authHeader : Bytes)
    (ah : AuthHdr) : Option AuthHdr :=
  if hasPrefixCase authHeader "Digest " then
    if authMode ≠ .digest then none else some (mgParseAuthHdrDigest stack authHeader ah)
  else if hasPrefixCase authHeader "Basic " then
    if authMode ≠ .basic then none else some (mgParseAuthHdrBasic bioRead authHeader ah)
  else if hasPrefixCase authHeader "Bearer " then
    if authMode ≠ .token then none else some (mgParseAuthHdrToken bioRead authHeader ah)
  else none

/-- A good parse hands out the credentials and, outside of the token scheme,
writes the user name to the connection. -/
def mgParseAuthHeader (bioRead : BioRead) (authMode : AuthMode) (source : AuthSource)
    (userId : Bytes) (ah : AuthHdr) : AuthHdrResult × AuthHdr × Bytes :=
  match source.authorization with
  | none => (.missing, ah, userId)
  | some header =>
      match parseScheme bioRead authMode source.stack header ah with
      | none => (.bad, ah, userId)
      | some ah =>
          if ah.mode = .digest ∧
              (ah.uri = none ∨ ah.nonce = none ∨ ah.nc = none ∨ ah.cnonce = none) then
            (.bad, ah, userId)
          else if ah.mode = .token then (.good, ah, userId)
          else
            match ah.user with
            | none => (.bad, ah, userId)
            | some user => (.good, ah, user.take mgUidMax)

section UserName

/-- No scheme keeps more of a user name than fits. -/
def UserFits (ah : AuthHdr) : Prop := ∀ user, ah.user = some user → user.length ≤ maxUidpwd

theorem userFits_strndup {ah : AuthHdr} {memory : Bytes}
    (h : ah.user = some (strndup memory maxUidpwd)) : UserFits ah := by
  intro user huser
  rw [h, Option.some.injEq] at huser
  rw [← huser]
  exact strndup_length_le memory maxUidpwd

theorem UserFits.congr {ah ah' : AuthHdr} (h : UserFits ah) (huser : ah'.user = ah.user) :
    UserFits ah' := by
  intro user hsome
  rw [huser] at hsome
  exact h user hsome

theorem digestField_userFits {ah : AuthHdr} (h : UserFits ah) (name value : Bytes) :
    UserFits (digestField name value ah) := by
  unfold digestField
  split
  · exact userFits_strndup rfl
  · apply h.congr
    repeat' split
    all_goals rfl

theorem digestLoop_userFits {ah : AuthHdr} (h : UserFits ah) (fuel : Nat) (text : Bytes) :
    UserFits (digestLoop fuel text ah) := by
  induction fuel generalizing text ah with
  | zero => exact h
  | succ fuel ih =>
    simp only [digestLoop]
    split
    · exact h
    · exact ih (digestField_userFits h _ _) _

theorem parseScheme_cases {bioRead : BioRead} {authMode : AuthMode} {stack authHeader : Bytes}
    {ah parsed : AuthHdr}
    (hparsed : parseScheme bioRead authMode stack authHeader ah = some parsed) :
    parsed = mgParseAuthHdrDigest stack authHeader ah ∨
      parsed = mgParseAuthHdrBasic bioRead authHeader ah ∨
      parsed = mgParseAuthHdrToken bioRead authHeader ah := by
  unfold parseScheme at hparsed
  grind

theorem parseScheme_userFits {bioRead : BioRead} {authMode : AuthMode} {stack authHeader : Bytes}
    {ah parsed : AuthHdr} (h : UserFits ah)
    (hparsed : parseScheme bioRead authMode stack authHeader ah = some parsed) : UserFits parsed := by
  have hbasic : UserFits (mgParseAuthHdrBasic bioRead authHeader ah) := by
    unfold mgParseAuthHdrBasic
    simp only
    split
    · exact h
    · split
      · exact h
      · split
        · exact h.congr rfl
        · exact h
      · exact userFits_strndup rfl
  have htoken : UserFits (mgParseAuthHdrToken bioRead authHeader ah) := by
    apply h.congr
    unfold mgParseAuthHdrToken
    simp only
    repeat' split
    all_goals rfl
  have hdigest : UserFits (mgParseAuthHdrDigest stack authHeader ah) := by
    apply digestLoop_userFits
    exact h.congr rfl
  rcases parseScheme_cases hparsed with rfl | rfl | rfl
  · exact hdigest
  · exact hbasic
  · exact htoken

theorem digestLoop_mode {fuel : Nat} {text : Bytes} {ah : AuthHdr} :
    (digestLoop fuel text ah).mode = ah.mode := by
  induction fuel generalizing text ah with
  | zero => rfl
  | succ fuel ih =>
    simp only [digestLoop]
    split
    · rfl
    · rw [ih]
      unfold digestField
      repeat' split
      all_goals rfl

/-- A token comes without a user name. -/
theorem parseScheme_token {bioRead : BioRead} {authMode : AuthMode} {stack authHeader : Bytes}
    {parsed : AuthHdr}
    (hparsed : parseScheme bioRead authMode stack authHeader estCreateAh = some parsed)
    (htoken : parsed.mode = .token) : parsed.user = none := by
  rcases parseScheme_cases hparsed with rfl | rfl | rfl
  · rw [mgParseAuthHdrDigest, digestLoop_mode] at htoken
    cases htoken
  · unfold mgParseAuthHdrBasic at htoken
    simp only at htoken
    repeat' split at htoken
    all_goals cases htoken
  · unfold mgParseAuthHdrToken
    simp only
    repeat' split
    all_goals rfl

/-- The connection keeps the name that it had, unless the header is good and has a
name: then it takes that, and the whole of it. -/
theorem mgParseAuthHeader_user {bioRead : BioRead} {authMode : AuthMode} {source : AuthSource}
    {userId user : Bytes} {parsed : AuthHdr} {result : AuthHdrResult}
    (hparsed : mgParseAuthHeader bioRead authMode source userId estCreateAh =
      (result, parsed, user)) :
    (user = userId ∧ (result = .good → parsed.mode = .token ∧ parsed.user = none)) ∨
    (result = .good ∧ parsed.mode ≠ .token ∧ parsed.user = some user) := by
  have hfits : UserFits estCreateAh := by
    intro name hname
    cases hname
  unfold mgParseAuthHeader at hparsed
  split at hparsed
  · cases hparsed
    exact Or.inl ⟨rfl, by simp⟩
  · split at hparsed
    · cases hparsed
      exact Or.inl ⟨rfl, by simp⟩
    · rename_i scheme hscheme
      split at hparsed
      · cases hparsed
        exact Or.inl ⟨rfl, by simp⟩
      · split at hparsed
        · rename_i htoken
          cases hparsed
          exact Or.inl ⟨rfl, fun _ => ⟨htoken, parseScheme_token hscheme htoken⟩⟩
        · rename_i htoken
          split at hparsed
          · cases hparsed
            exact Or.inl ⟨rfl, by simp⟩
          · rename_i name hname
            cases hparsed
            have hlength := parseScheme_userFits hfits hscheme name hname
            have hwhole : name.take mgUidMax = name :=
              List.take_of_length_le (Nat.le_trans hlength (by decide))
            rw [hwhole]
            exact Or.inr ⟨rfl, htoken, hname⟩

end UserName

end LibEst.Server.AuthHeader
