import LibEst.Client.AuthRoundTrip

/-! What a server reads from the Digest header of a client. The client writes
its texts between quotation marks as they are, and the server takes the header
apart in a copy of fixed size. -/
namespace LibEst.Client.DigestRoundTrip

open LibEst.Basic LibEst.Base64 LibEst.Lib.ByteString LibEst.SafeStr
open LibEst.Server.AuthHeader LibEst.Server.AuthDigest
open LibEst.Client.Context LibEst.Client.AuthHeader LibEst.Client.AuthRoundTrip
open LibEst.Client.Reference

def quote : UInt8 := 34
def backslash : UInt8 := 92

section Scan

/-- The scan of a text in quotation marks ends at the mark that closes it. -/
def framed (text : Bytes) : Bool := (scanWord [quote] backslash [] (text ++ [quote])).2 = [quote]

theorem scanWord_more {text word : Bytes}
    (h : (scanWord [quote] backslash word (text ++ [quote])).2 = [quote]) (rest : Bytes) :
    (scanWord [quote] backslash word (text ++ quote :: rest)).2 = quote :: rest := by
  induction text generalizing word with
  | nil =>
    rw [List.nil_append, scanWord, if_pos (by simp)] at h ⊢
    split at h
    · rw [scanWord] at h
      cases h
    · rename_i hlast
      rw [if_neg hlast]
  | cons c text ih =>
    rw [List.cons_append, scanWord] at h ⊢
    split at h
    · rename_i hc
      rw [if_pos hc]
      split at h
      · rename_i hlast
        rw [if_pos hlast]
        exact ih h
      · simp at h
    · rename_i hc
      rw [if_neg hc]
      exact ih h

end Scan

section Pairs

theorem skipQuoted_name {name : Bytes} (hequals : (61 : UInt8) ∉ name) (hzero : (0 : UInt8) ∉ name)
    (rest : Bytes) (hrest : rest.dropWhile (· ∈ ascii " ") = rest) :
    skipQuoted (ascii "=") (ascii " ") 0 (name ++ 61 :: rest) = (name, rest) := by
  have hname : ∀ c ∈ name, c ∉ ascii "=" := by
    intro c hc hmem
    rw [show ascii "=" = [61] from by decide, List.mem_singleton] at hmem
    exact hequals (hmem ▸ hc)
  rw [skipQuoted_plain (by decide) hname hzero, hrest]

/-- A name that the loop can meet. -/
structure IsName (name : Bytes) : Prop where
  ne : name ≠ []
  equals : (61 : UInt8) ∉ name
  zero : (0 : UInt8) ∉ name
  space : name.dropWhile isspace = name

theorem IsName.dropWhile {name : Bytes} (h : IsName name) (rest : Bytes) :
    (name ++ rest).dropWhile isspace = name ++ rest := by
  have hspace := h.space
  cases name with
  | nil => exact absurd rfl h.ne
  | cons c name =>
    rw [List.dropWhile_cons] at hspace
    split at hspace
    · have hlen := congrArg List.length hspace
      have hle := (List.dropWhile_suffix (l := name) isspace).length_le
      rw [List.length_cons] at hlen
      omega
    · rename_i hc
      rw [List.cons_append, List.dropWhile_cons_of_neg hc]

variable {name value : Bytes}

theorem digestPair_value (hname : IsName name) (front rest : Bytes)
    (hfront : ∀ c ∈ front, isspace c = true) :
    digestPair (front ++ (name ++ 61 :: quote :: rest)) =
      match skipQuoted [quote] (ascii " ") backslash rest with
      | (word, 44 :: rest) => (name, word, rest)
      | (word, rest) => (name, word, rest) := by
  have hdrop : (front ++ (name ++ 61 :: quote :: rest)).dropWhile isspace =
      name ++ 61 :: quote :: rest := by
    rw [List.dropWhile_append_of_pos hfront, hname.dropWhile]
  have hskip := skipQuoted_name hname.equals hname.zero (quote :: rest)
    (by rw [List.dropWhile_cons_of_neg (by decide)])
  unfold digestPair
  simp only [hdrop, hskip]
  simp only [quote, backslash]
  generalize skipQuoted [34] (ascii " ") 92 rest = scanned
  obtain ⟨word, after⟩ := scanned
  cases after with
  | nil => rfl
  | cons c after =>
    by_cases hc : c = 44
    · subst hc
      rfl
    · simp only
      split
      · rename_i heq
        exact absurd (List.cons.inj heq).1 hc
      · split
        · rename_i heq
          rw [Prod.mk.injEq] at heq
          exact absurd (List.cons.inj heq.2).1 hc
        · rename_i heq
          rw [Prod.mk.injEq] at heq
          rw [heq.1, heq.2]

/-- A value in quotation marks with a comma behind it. -/
theorem digestPair_framed (hname : IsName name) (hframed : framed value = true)
    (front rest : Bytes) (hfront : ∀ c ∈ front, isspace c = true) :
    ∃ word, digestPair (front ++ (name ++ 61 :: quote :: (value ++ quote :: 44 :: rest))) =
      (name, word, rest) := by
  have hend := scanWord_more (of_decide_eq_true hframed) (44 :: rest)
  rw [digestPair_value hname _ _ hfront, skipQuoted]
  generalize scanWord [quote] backslash [] (value ++ quote :: 44 :: rest) = scanned at hend
  obtain ⟨word, after⟩ := scanned
  simp only at hend
  subst hend
  exact ⟨word, rfl⟩

/-- A text that the quotation marks around it do not change. -/
structure Quotable (text : Bytes) : Prop where
  unquoted : quote ∉ text
  closed : text.getLast? ≠ some backslash

theorem Quotable.scan (h : Quotable value) (rest : Bytes) :
    scanWord [quote] backslash [] (value ++ quote :: rest) = (value, quote :: rest) := by
  have hmem : quote ∈ [quote] := by simp
  apply scanWord_plain hmem
  · intro c hc hmem
    exact h.unquoted (List.mem_singleton.mp hmem ▸ hc)
  · exact h.closed

theorem digestPair_quotable (hname : IsName name) (hvalue : Quotable value)
    (front rest : Bytes) (hfront : ∀ c ∈ front, isspace c = true) :
    digestPair (front ++ (name ++ 61 :: quote :: (value ++ quote :: 44 :: rest))) =
      (name, value, rest) := by
  rw [digestPair_value hname _ _ hfront, skipQuoted, hvalue.scan]
  rfl

/-- The last value has nothing behind it. -/
theorem digestPair_last (hname : IsName name) (hvalue : Quotable value)
    (front : Bytes) (hfront : ∀ c ∈ front, isspace c = true) :
    digestPair (front ++ (name ++ 61 :: quote :: (value ++ [quote]))) = (name, value, []) := by
  rw [digestPair_value hname _ _ hfront, skipQuoted, hvalue.scan]
  rfl

/-- The count is the one value without quotation marks. -/
theorem digestPair_count (rest : Bytes) (hrest : rest.dropWhile (· ∈ ascii " ") = rest) :
    digestPair (32 :: (ascii "nc" ++ 61 :: (ascii "00000001" ++ 44 :: 32 :: rest))) =
      (ascii "nc", ascii "00000001", rest) := by
  have hvalue : skipQuoted (ascii ", ") (ascii " ") 0 (ascii "00000001" ++ 44 :: 32 :: rest) =
      (ascii "00000001", rest) := by
    have hscan : scanWord (ascii ", ") 0 [] (ascii "00000001" ++ 44 :: 32 :: rest) =
        ([] ++ ascii "00000001", 44 :: 32 :: rest) := by
      apply scanWord_plain
      · decide
      · decide
      · decide
    rw [skipQuoted, hscan]
    simp only [List.nil_append]
    rw [List.dropWhile_cons_of_pos (by decide), hrest]
  have hname : IsName (ascii "nc") := ⟨by decide, by decide, by decide, by decide⟩
  have hskip := skipQuoted_name hname.equals hname.zero
    (ascii "00000001" ++ 44 :: 32 :: rest) (by
      rw [show ascii "00000001" = 48 :: ascii "0000001" from by decide, List.cons_append,
        List.dropWhile_cons_of_neg (by decide)])
  unfold digestPair
  rw [List.dropWhile_cons_of_pos (by decide), hname.dropWhile, hskip]
  simp only [hvalue]
  rw [show ascii "00000001" = 48 :: ascii "0000001" from by decide, List.cons_append]
  rfl

end Pairs

section Loop

theorem digestLoop_step {text name value rest : Bytes} (hpair : digestPair text = (name, value, rest))
    (hne : name ≠ []) (hlen : rest.length < text.length) (ah : AuthHdr) :
    digestLoop (text.length + 1) text ah =
      digestLoop (rest.length + 1) rest (digestField name value ah) := by
  rw [digestLoop, hpair]
  simp only [if_neg hne]
  exact digestLoop_fuel hlen (Nat.lt_succ_self _) _

theorem digestLoop_end (ah : AuthHdr) : digestLoop 1 [] ah = ah := by
  rw [digestLoop, show digestPair [] = ([], [], []) from by decide]
  rfl

/-- A text as it stands in a field of the header. -/
structure Field (text : Bytes) (max : Nat) : Prop where
  quotable : Quotable text
  zero : (0 : UInt8) ∉ text
  len : text.length ≤ max

theorem digestText_eq (user realm nonce uri cnonce response : Bytes) :
    digestText user realm nonce uri cnonce response =
      [] ++ (ascii "username" ++ 61 :: quote :: (user ++ quote :: 44 ::
        ([32] ++ (ascii "realm" ++ 61 :: quote :: (realm ++ quote :: 44 ::
          ([32] ++ (ascii "nonce" ++ 61 :: quote :: (nonce ++ quote :: 44 ::
            ([32] ++ (ascii "uri" ++ 61 :: quote :: (uri ++ quote :: 44 ::
              ([32] ++ (ascii "cnonce" ++ 61 :: quote :: (cnonce ++ quote :: 44 ::
                (32 :: (ascii "nc" ++ 61 :: (ascii "00000001" ++ 44 :: 32 ::
                  ([] ++ (ascii "qop" ++ 61 :: quote :: (ascii "auth" ++ quote :: 44 ::
                    ([32] ++ (ascii "response" ++ 61 :: quote ::
                      (response ++ [quote]))))))))))))))))))))))) := by
  have huser : ascii "username=\"" = ascii "username" ++ [61, quote] := by decide
  have hrealm : ascii "\", realm=\"" = [quote, 44, 32] ++ ascii "realm" ++ [61, quote] := by decide
  have hnonce : ascii "\", nonce=\"" = [quote, 44, 32] ++ ascii "nonce" ++ [61, quote] := by decide
  have huri : ascii "\", uri=\"" = [quote, 44, 32] ++ ascii "uri" ++ [61, quote] := by decide
  have hcnonce : ascii "\", cnonce=\"" = [quote, 44, 32] ++ ascii "cnonce" ++ [61, quote] := by
    decide
  have hrest : ascii "\", nc=00000001, qop=\"auth\", response=\"" =
      [quote, 44, 32] ++ ascii "nc" ++ [61] ++ ascii "00000001" ++ [44, 32] ++ ascii "qop" ++
        [61, quote] ++ ascii "auth" ++ [quote, 44, 32] ++ ascii "response" ++ [61, quote] := by
    decide
  have hend : ascii "\"" = [quote] := by decide
  rw [digestText, huser, hrealm, hnonce, huri, hcnonce, hrest, hend]
  simp only [List.append_assoc, List.cons_append, List.nil_append]

section Fields

variable (value : Bytes) (ah : AuthHdr)

theorem digestField_username :
    digestField (ascii "username") value ah =
      { ah with user := some (strndup value maxUidpwd) } := by
  rw [digestField, if_pos (by decide)]

theorem digestField_realm : digestField (ascii "realm") value ah = ah := by
  unfold digestField
  rw [if_neg (by decide), if_neg (by decide), if_neg (by decide), if_neg (by decide),
    if_neg (by decide), if_neg (by decide), if_neg (by decide)]

theorem digestField_nonce :
    digestField (ascii "nonce") value ah = { ah with nonce := some (strndup value maxNonce) } := by
  unfold digestField
  rw [if_neg (by decide), if_neg (by decide), if_neg (by decide), if_neg (by decide),
    if_neg (by decide), if_neg (by decide), if_pos (by decide)]

theorem digestField_uri :
    digestField (ascii "uri") value ah = { ah with uri := some (strndup value maxRealm) } := by
  unfold digestField
  rw [if_neg (by decide), if_neg (by decide), if_neg (by decide), if_pos (by decide)]

theorem digestField_cnonce :
    digestField (ascii "cnonce") value ah =
      { ah with cnonce := some (strndup value maxNonce) } := by
  unfold digestField
  rw [if_neg (by decide), if_pos (by decide)]

theorem digestField_nc :
    digestField (ascii "nc") value ah = { ah with nc := some (strndup value maxNc) } := by
  unfold digestField
  rw [if_neg (by decide), if_neg (by decide), if_neg (by decide), if_neg (by decide),
    if_neg (by decide), if_pos (by decide)]

theorem digestField_qop :
    digestField (ascii "qop") value ah = { ah with qop := some (strndup value maxQop) } := by
  unfold digestField
  rw [if_neg (by decide), if_neg (by decide), if_neg (by decide), if_neg (by decide),
    if_pos (by decide)]

theorem digestField_response :
    digestField (ascii "response") value ah =
      { ah with response := some (strndup value maxResponse) } := by
  unfold digestField
  rw [if_neg (by decide), if_neg (by decide), if_pos (by decide)]

end Fields

theorem isSpace_front : ∀ c ∈ ([32] : Bytes), isspace c = true := by decide

theorem isSpace_nil : ∀ c ∈ ([] : Bytes), isspace c = true := by decide

/-- The fields that the loop finds in the text of a client. -/
theorem digestLoop_text {user realm nonce uri cnonce response : Bytes}
    (huser : Field user maxUidpwd) (hrealm : framed realm = true) (hnonce : Field nonce maxNonce)
    (huri : Field uri maxRealm) (hcnonce : Field cnonce maxNonce)
    (hresponse : Field response maxResponse) (ah : AuthHdr) :
    digestLoop ((digestText user realm nonce uri cnonce response).length + 1)
        (digestText user realm nonce uri cnonce response) ah =
      { ah with
        user := some user, nonce := some nonce, uri := some uri, cnonce := some cnonce,
        nc := some (ascii "00000001"), qop := some (ascii "auth"), response := some response } := by
  have hauth : Quotable (ascii "auth") := ⟨by decide, by decide⟩
  rw [digestText_eq]
  rw [digestLoop_step (digestPair_quotable ⟨by decide, by decide, by decide, by decide⟩
    huser.quotable [] _ isSpace_nil) (by decide) (by simp; omega), digestField_username]
  have hname : IsName (ascii "realm") := ⟨by decide, by decide, by decide, by decide⟩
  obtain ⟨word, hpair⟩ := digestPair_framed hname hrealm [32] _ isSpace_front
  rw [digestLoop_step hpair (by decide) (by simp; omega), digestField_realm]
  rw [digestLoop_step (digestPair_quotable ⟨by decide, by decide, by decide, by decide⟩
    hnonce.quotable [32] _ isSpace_front) (by decide) (by simp; omega), digestField_nonce]
  rw [digestLoop_step (digestPair_quotable ⟨by decide, by decide, by decide, by decide⟩
    huri.quotable [32] _ isSpace_front) (by decide) (by simp; omega), digestField_uri]
  rw [digestLoop_step (digestPair_quotable ⟨by decide, by decide, by decide, by decide⟩
    hcnonce.quotable [32] _ isSpace_front) (by decide) (by simp; omega), digestField_cnonce]
  rw [digestLoop_step (digestPair_count _ (by rw [show ascii "qop" = 113 :: ascii "op" from
    by decide, List.nil_append, List.cons_append, List.dropWhile_cons_of_neg (by decide)]))
    (by decide) (by simp; omega), digestField_nc]
  rw [digestLoop_step (digestPair_quotable ⟨by decide, by decide, by decide, by decide⟩
    hauth [] _ isSpace_nil) (by decide) (by simp; omega), digestField_qop]
  rw [digestLoop_step (digestPair_last ⟨by decide, by decide, by decide, by decide⟩
    hresponse.quotable [32] isSpace_front) (by decide) (by simp), digestField_response]
  rw [List.length_nil, Nat.zero_add, digestLoop_end]
  simp only [strndup_eq_self huser.zero huser.len, strndup_eq_self hnonce.zero hnonce.len,
    strndup_eq_self huri.zero huri.len, strndup_eq_self hcnonce.zero hcnonce.len,
    strndup_eq_self hresponse.zero hresponse.len]
  rfl

end Loop

section Agreement

/-- The resources that a client sends credentials to. -/
def operationUris : List Bytes :=
  [ascii "/.well-known/est/csrattrs", ascii "/.well-known/est/simpleenroll",
    ascii "/.well-known/est/simplereenroll", ascii "/.well-known/est/serverkeygen",
    ascii "/.well-known/est/requestvoucher"]

/-- Credentials as `est_client_set_uid_pw` and the callback provide them. -/
structure Accepted (ctx : ClientCtx) : Prop where
  userLen : ctx.userid.length ≤ maxUidpwd
  pwdLen : ctx.password.length ≤ maxUidpwd
  userZero : (0 : UInt8) ∉ ctx.userid
  callbackZero : ∀ mode user, (appCredentials ctx mode).user = some user → (0 : UInt8) ∉ user

/-- The realm and the nonce of a server; the nonce is the time of day. -/
structure Challenged (ctx : ClientCtx) : Prop where
  realmLen : ctx.realm.length ≤ maxRealm
  nonce : ∃ time < 2 ^ 64, ctx.sNonce = decimal time

variable (env : AuthEnv) (ctx : ClientCtx)

def clientUser : Bytes := (digestCredentials ctx env.stack).1

def clientPwd : Bytes := (digestCredentials ctx env.stack).2

def clientResponse (random uri : Bytes) : Bytes :=
  estClientGenerateAuthDigest env.md5 ctx (estHexToStr random) uri (clientUser env ctx)
    (clientPwd env ctx)

/-- Whatever lies behind its copy of the header, the server reads the fields that
the client has written, and from them and from what is stored for the user comes
to the response of the client. -/
def DigestAgrees (random uri : Bytes) : Prop :=
  ∃ value, digestValue env ctx uri = some value ∧
    ∀ bioRead stack userId, ∃ ah connUser,
      mgParseAuthHeader bioRead .digest { authorization := some value, stack := stack } userId
        estCreateAh = (.good, ah, connUser) ∧
      ah.user = some (clientUser env ctx) ∧ ah.nonce = some ctx.sNonce ∧ ah.uri = some uri ∧
      ah.cnonce = some (estHexToStr random) ∧ ah.nc = some (ascii "00000001") ∧
      ah.response = some (clientResponse env ctx random uri) ∧
      estServerGenerateAuthDigest env.md5 ah
          (ha1Of env.md5 (clientUser env ctx) ctx.realm (clientPwd env ctx)) =
        some (clientResponse env ctx random uri)

/-- The user name is not cut short by a quotation mark, the realm closes where it
should, and the whole header fits the copy of the server. -/
structure FitsDigest (user realm nonce uri : Bytes) : Prop where
  quotable : Quotable user
  closed : framed realm = true
  room : user.length + realm.length + nonce.length + uri.length < 248

theorem digestText_length (user realm nonce uri cnonce response : Bytes) :
    (digestText user realm nonce uri cnonce response).length =
      user.length + realm.length + nonce.length + uri.length + cnonce.length + response.length +
        88 := by
  have hliterals : (ascii "username=\"").length = 10 ∧ (ascii "\", realm=\"").length = 10 ∧
      (ascii "\", nonce=\"").length = 10 ∧ (ascii "\", uri=\"").length = 8 ∧
      (ascii "\", cnonce=\"").length = 11 ∧
      (ascii "\", nc=00000001, qop=\"auth\", response=\"").length = 38 ∧
      (ascii "\"").length = 1 := by decide
  obtain ⟨h₁, h₂, h₃, h₄, h₅, h₆, h₇⟩ := hliterals
  simp only [digestText, List.length_append, h₁, h₂, h₃, h₄, h₅, h₆, h₇]
  omega

variable {env ctx}

theorem quotable_of_forall {text : Bytes} (h : ∀ c ∈ text, c ≠ quote ∧ c ≠ backslash) :
    Quotable text := by
  constructor
  · intro hmem
    exact (h _ hmem).1 rfl
  · intro hlast
    exact (h _ (List.mem_of_getLast? hlast)).2 rfl

theorem estHexToStr_field {src : Bytes} {max : Nat} (hlen : 2 * src.length ≤ max) :
    Field (estHexToStr src) max := by
  have hother : ∀ c, isHexDigit c = false → c ∉ estHexToStr src := by
    intro c hc hmem
    rw [estHexToStr_isHexDigit c hmem] at hc
    cases hc
  refine ⟨⟨hother quote (by decide), ?_⟩, hother 0 (by decide), ?_⟩
  · intro hlast
    exact hother backslash (by decide) (List.mem_of_getLast? hlast)
  · rw [estHexToStr_length]
    exact hlen

theorem operationUris_field {uri : Bytes} (h : uri ∈ operationUris) : Field uri maxRealm := by
  have hall : ∀ uri ∈ operationUris, (∀ c ∈ uri, c ≠ quote ∧ c ≠ backslash) ∧ (0 : UInt8) ∉ uri ∧
      uri.length ≤ maxRealm := by decide +kernel
  obtain ⟨hchars, hzero, hlen⟩ := hall uri h
  exact ⟨quotable_of_forall hchars, hzero, hlen⟩

theorem decimal_field {time : Nat} (h : time < 2 ^ 64) :
    Field (decimal time) maxNonce ∧ (decimal time).length ≤ 20 := by
  have hlen : (decimal time).length ≤ 20 := by
    apply numeral_length_le (by decide) (by decide)
    exact Nat.lt_trans h (by decide)
  have hother : ∀ c, (∀ d, d < 16 → digitByte d ≠ c) → c ∉ decimal time :=
    fun c hc => not_mem_numeral (by decide) (by decide) hc time
  refine ⟨⟨⟨hother quote (by decide), ?_⟩, hother 0 (by decide), Nat.le_trans hlen (by decide)⟩,
    hlen⟩
  intro hlast
  exact hother backslash (by decide) (List.mem_of_getLast? hlast)

/-- A user name that leaves room for the rest is the one of the configuration or
of the callback. -/
theorem clientUser_field (haccepted : Accepted ctx)
    (hquotable : Quotable (clientUser env ctx)) (hroom : (clientUser env ctx).length < 248) :
    Field (clientUser env ctx) maxUidpwd := by
  refine ⟨hquotable, ?_, Nat.le_trans (Nat.le_of_lt hroom) (by decide)⟩
  unfold clientUser digestCredentials at *
  by_cases hconfigured : hasCredentials ctx = true
  · rw [if_pos hconfigured] at hroom ⊢
    simp only at hroom ⊢
    by_cases hshort : ctx.userid.length < maxUidpwd
    · rw [strcpyS_of_lt hshort]
      exact haccepted.userZero
    · rw [strcpyS, if_neg hshort, List.length_append, List.length_take] at hroom
      unfold maxUidpwd at hroom hshort
      omega
  · rw [if_neg hconfigured]
    simp only [estClientRetrieveCredentials]
    unfold providedText
    split
    · simp
    · rename_i text htext
      have hzero := haccepted.callbackZero .digest text htext
      split
      · simp
      · unfold strcpyS
        split
        · exact hzero
        · intro hmem
          rw [List.append_nil] at hmem
          exact hzero (List.mem_of_mem_take hmem)

theorem clientPwd_length (haccepted : Accepted ctx) : (clientPwd env ctx).length ≤ maxUidpwd := by
  unfold clientPwd digestCredentials
  split
  · exact haccepted.pwdLen
  · simp only [estClientRetrieveCredentials]
    unfold providedText
    split
    · exact Nat.zero_le _
    · split
      · exact Nat.zero_le _
      · unfold strcpyS
        split
        · exact Nat.le_of_lt (by assumption)
        · rw [List.append_nil]
          exact List.length_take_le _ _

theorem hasPrefixCase_digest (text : Bytes) :
    hasPrefixCase (ascii "Digest " ++ text) "Digest " = true := by
  have htake : (ascii "Digest " ++ text).take "Digest ".length = ascii "Digest " := by
    have hlen : "Digest ".length = (ascii "Digest ").length := by decide
    rw [hlen, List.take_left]
  rw [hasPrefixCase, htake]
  exact decide_eq_true rfl

section Exchange

variable {random uri : Bytes}

def clientText (env : AuthEnv) (ctx : ClientCtx) (random uri : Bytes) : Bytes :=
  digestText (clientUser env ctx) ctx.realm ctx.sNonce uri (estHexToStr random)
    (clientResponse env ctx random uri)

/-- The fields of that text. -/
def clientFields (env : AuthEnv) (ctx : ClientCtx) (random uri : Bytes) : AuthHdr :=
  { estCreateAh with
    mode := .digest
    user := some (clientUser env ctx)
    nonce := some ctx.sNonce
    uri := some uri
    cnonce := some (estHexToStr random)
    nc := some (ascii "00000001")
    qop := some (ascii "auth")
    response := some (clientResponse env ctx random uri) }

theorem digestValue_eq (hsource : env.random = some random) (uri : Bytes) :
    digestValue env ctx uri = some (ascii "Digest " ++ clientText env ctx random uri) := by
  rw [digestValue, hsource]
  rfl

/-- The server comes to the same digest from the fields it has read. -/
theorem estServerGenerateAuthDigest_client (haccepted : Accepted ctx) (hchallenged : Challenged ctx)
    (huserLen : (clientUser env ctx).length ≤ maxUidpwd) (hnonceLen : ctx.sNonce.length ≤ maxNonce)
    (hrandom : random.length = 8) (huri : uri.length ≤ maxRealm) {ah : AuthHdr}
    (hnonce : ah.nonce = some ctx.sNonce) (hahUri : ah.uri = some uri)
    (hcnonce : ah.cnonce = some (estHexToStr random)) (hnc : ah.nc = some (ascii "00000001")) :
    estServerGenerateAuthDigest env.md5 ah
        (ha1Of env.md5 (clientUser env ctx) ctx.realm (clientPwd env ctx)) =
      some (clientResponse env ctx random uri) := by
  have hha1 : (ha1Of env.md5 (clientUser env ctx) ctx.realm (clientPwd env ctx)).length = 32 := by
    rw [ha1Of, estHexToStr_length, env.md5.length]
  have hcnonceLen : (estHexToStr random).length ≤ maxNonce := by
    rw [estHexToStr_length, hrandom]
    decide
  have hpwdLen : (clientPwd env ctx).length ≤ maxUidpwd := clientPwd_length haccepted
  rw [estServerGenerateAuthDigest, if_neg (by omega), List.take_of_length_le (by omega)]
  simp only [fieldText, hnonce, hahUri, hcnonce, hnc, Option.getD_some, ha1Of, ha2Of,
    clientResponse, estClientGenerateAuthDigest, List.take_of_length_le huserLen,
    List.take_of_length_le hpwdLen, List.take_of_length_le hchallenged.realmLen,
    List.take_of_length_le hnonceLen, List.take_of_length_le hcnonceLen,
    List.take_of_length_le huri,
    List.take_of_length_le (show (ascii "00000001").length ≤ maxNc by decide)]

/-- A header whose texts need no escape and that fits the copy of the server is
read as it was meant. -/
theorem digest_agreement (haccepted : Accepted ctx) (hchallenged : Challenged ctx)
    (hsource : env.random = some random) (hrandom : random.length = 8) (huri : uri ∈ operationUris)
    (hfits : FitsDigest (clientUser env ctx) ctx.realm ctx.sNonce uri) :
    DigestAgrees env ctx random uri := by
  obtain ⟨time, htime, hnonceText⟩ := hchallenged.nonce
  have hroom := hfits.room
  have huser := clientUser_field haccepted hfits.quotable (by omega)
  have hnonce : Field ctx.sNonce maxNonce := by
    rw [hnonceText]
    exact (decimal_field htime).1
  have huriField := operationUris_field huri
  have hcnonce : Field (estHexToStr random) maxNonce := estHexToStr_field (by rw [hrandom]; decide)
  have hresponse : Field (clientResponse env ctx random uri) maxResponse :=
    estHexToStr_field (by rw [env.md5.length]; decide)
  refine ⟨_, digestValue_eq hsource uri, ?_⟩
  intro bioRead stack userId
  -- the copy of the server holds the whole text
  have hcopy : digestCopy stack (ascii "Digest " ++ clientText env ctx random uri) =
      clientText env ctx random uri := by
    have hdrop : (ascii "Digest " ++ clientText env ctx random uri).drop 7 =
        clientText env ctx random uri := by
      rw [show 7 = (ascii "Digest ").length from by decide, List.drop_left]
    have hlen := digestText_length (clientUser env ctx) ctx.realm ctx.sNonce uri
      (estHexToStr random) (clientResponse env ctx random uri)
    have hresponseLen : (clientResponse env ctx random uri).length = 32 := by
      rw [clientResponse, estClientGenerateAuthDigest, estHexToStr_length, env.md5.length]
    rw [estHexToStr_length, hrandom, hresponseLen] at hlen
    simp only [digestCopy, hdrop]
    rw [if_pos]
    unfold maxAuthHdrLen clientText
    omega
  have hparsed : parseScheme bioRead .digest stack
      (ascii "Digest " ++ clientText env ctx random uri) estCreateAh =
        some (clientFields env ctx random uri) := by
    rw [parseScheme, if_pos (hasPrefixCase_digest _), if_neg (by decide), mgParseAuthHdrDigest,
      hcopy, clientText, digestLoop_text huser hfits.closed hnonce huriField hcnonce hresponse]
    rfl
  refine ⟨clientFields env ctx random uri, (clientUser env ctx).take mgUidMax, ?_, rfl, rfl, rfl,
    rfl, rfl, rfl, ?_⟩
  · simp only [mgParseAuthHeader, hparsed]
    rfl
  · exact estServerGenerateAuthDigest_client haccepted hchallenged huser.len hnonce.len hrandom
      huriField.len rfl rfl rfl rfl

end Exchange

/-- A client that has been challenged. -/
def challengedCtx (user : Bytes) : ClientCtx :=
  { hostCtx with
    authMode := .digest
    userid := user
    realm := ascii "estrealm"
    sNonce := decimal 1700000000 }

theorem digest_agreement_alice :
    DigestAgrees hostEnv (challengedCtx (ascii "alice")) [0, 1, 2, 3, 4, 5, 6, 7]
      estCsrAttrsUri := by
  apply digest_agreement
  · refine ⟨by decide, by decide, by decide, ?_⟩
    intro mode user huser
    cases huser
    decide
  · exact ⟨by decide, 1700000000, by decide, rfl⟩
  · rfl
  · rfl
  · decide +kernel
  · exact ⟨⟨by decide, by decide⟩, by decide +kernel, by decide +kernel⟩

/-- A quotation mark in the user name ends it for the server. -/
theorem digest_disagreement_quote :
    ¬ DigestAgrees hostEnv (challengedCtx (ascii "al\"ice")) [0, 1, 2, 3, 4, 5, 6, 7]
      estCsrAttrsUri := by
  rintro ⟨value, hvalue, hall⟩
  obtain ⟨ah, connUser, hparsed, huser, -⟩ := hall readBase64 [] []
  rw [digestValue_eq rfl, Option.some.injEq] at hvalue
  subst hvalue
  have hread : (mgParseAuthHeader readBase64 .digest
      { authorization := some (ascii "Digest " ++ clientText hostEnv
          (challengedCtx (ascii "al\"ice")) [0, 1, 2, 3, 4, 5, 6, 7] estCsrAttrsUri), stack := [] }
      [] estCreateAh).2.1.user = some (ascii "al") := by decide +kernel
  rw [hparsed, huser] at hread
  exact absurd hread (by decide +kernel)

end Agreement

end LibEst.Client.DigestRoundTrip
