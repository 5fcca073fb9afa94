import LibEst.Client.Reference

/-! What a server reads from the Basic and the Bearer header of a client. -/
namespace LibEst.Client.AuthRoundTrip

open LibEst.Base64 LibEst.Lib.ByteString LibEst.SafeStr
open LibEst.Server.AuthHeader LibEst.Server.AuthDigest
open LibEst.Client.Context LibEst.Client.AuthHeader LibEst.Client.Reference

def colon : UInt8 := 58

section Parser

variable {bioRead : BioRead}

theorem strndup_eq_self {text : Bytes} {n : Nat} (hzero : (0 : UInt8) ∉ text)
    (hlen : text.length ≤ n) : strndup text n = text := by
  rw [strndup, cString_eq_self hzero, List.take_of_length_le hlen]

theorem span_colon {user : Bytes} (hcolon : colon ∉ user) (pwd : Bytes) :
    (user ++ colon :: pwd).span (· ≠ 58) = (user, colon :: pwd) := by
  have hall : ∀ c ∈ user, decide (c ≠ 58) = true := by
    intro c hc
    apply decide_eq_true
    rintro rfl
    exact hcolon hc
  rw [List.span_eq_takeWhile_dropWhile, List.takeWhile_append_of_pos hall,
    List.dropWhile_append_of_pos hall]
  simp [colon]

/-- The split of the text at its first colon is the one that `strtok_s` makes. -/
theorem strtokS_colon {user pwd both : Bytes} (hsplit : both.span (· ≠ 58) = (user, colon :: pwd))
    (hne : user ≠ []) :
    (strtokS [colon] both both.length).token = some user ∧
      (strtokS [colon] both both.length).ptr = some pwd := by
  rw [List.span_eq_takeWhile_dropWhile, Prod.mk.injEq] at hsplit
  have hboth : both = user ++ colon :: pwd := by
    rw [← hsplit.1, ← hsplit.2]
    exact (List.takeWhile_append_dropWhile).symm
  have hfront : ∀ c ∈ user, c ∉ [colon] := by
    intro c hc hmem
    rw [← hsplit.1] at hc
    have hother := List.mem_takeWhile_imp hc
    rw [List.mem_singleton.mp hmem] at hother
    exact absurd hother (by decide)
  have hlen : user.length < both.length := by
    rw [hboth, List.length_append, List.length_cons]
    omega
  have hmem : colon ∈ [colon] := by simp
  have htoken := strtokS_front hmem hfront hne pwd hlen
  rw [← hboth] at htoken
  rw [htoken]
  exact ⟨rfl, rfl⟩

/-- A decoded text with a user name is taken apart at its first colon. -/
theorem mgParseAuthHdrBasic_decoded {authHeader user pwd : Bytes} (ah : AuthHdr)
    (hdecoded : estBase64Decode bioRead ((authHeader.drop 6).dropWhile isspace)
      (maxUidpwd * 2 + 2) = user ++ colon :: pwd)
    (hfits : (user ++ colon :: pwd).length < maxUidpwd * 2 + 2)
    (huser : user.length ≤ maxUidpwd) (hpwd : pwd.length ≤ maxUidpwd)
    (hzeroUser : (0 : UInt8) ∉ user) (hzeroPwd : (0 : UInt8) ∉ pwd)
    (hcolon : colon ∉ user) (hne : user ≠ []) :
    mgParseAuthHdrBasic bioRead authHeader ah =
      { ah with user := some user, pwd := some pwd, mode := .basic } := by
  have hzero : (0 : UInt8) ∉ user ++ colon :: pwd := by
    rw [List.mem_append, List.mem_cons]
    rintro (h | h | h)
    · exact hzeroUser h
    · exact absurd h (by decide)
    · exact hzeroPwd h
  have hsplit := span_colon hcolon pwd
  cases user with
  | nil => exact absurd rfl hne
  | cons c rest =>
    unfold mgParseAuthHdrBasic
    simp only [hdecoded]
    rw [if_neg (by rw [not_or]; exact ⟨by simp, Nat.not_le.mpr hfits⟩),
      cString_eq_self hzero, hsplit]
    simp only [strndup_eq_self hzeroUser huser, strndup_eq_self hzeroPwd hpwd]

theorem mgParseAuthHdrToken_decoded {authHeader token : Bytes} (ah : AuthHdr)
    (hdecoded : estBase64Decode bioRead ((authHeader.drop 6).dropWhile isspace)
      (maxAuthTokenLen * 2) = token)
    (hne : token ≠ []) (hlen : token.length ≤ maxAuthTokenLen) (hzero : (0 : UInt8) ∉ token)
    (hvalue : (authHeader.drop 6).dropWhile isspace ≠ []) :
    mgParseAuthHdrToken bioRead authHeader ah =
      { ah with authToken := some token, mode := .token } := by
  unfold mgParseAuthHdrToken
  simp only [hdecoded]
  rw [if_neg (by unfold maxAuthTokenLen at *; rw [not_or]; exact ⟨hne, by omega⟩), if_neg hvalue,
    strndup_eq_self hzero hlen]

end Parser

section Header

/-- A short line fits behind a header that leaves room for a body. -/
theorem estClientAddAuthHdr_value {env : AuthEnv} {ctx : ClientCtx} {uri text : Bytes}
    (hline : authLine env ctx uri = .value text) (hshort : text.length ≤ 700) {hdr : Bytes}
    (hroom : hdr.length ≤ estHttpReqDataMax) :
    estClientAddAuthHdr env ctx hdr uri =
      some (hdr ++ (ascii "Authorization: " ++ text ++ crlf)) := by
  have hname : (ascii "Authorization: ").length = 15 := by decide
  have hend : crlf.length = 2 := rfl
  unfold estHttpReqDataMax at hroom
  simp only [estClientAddAuthHdr, hline, snprintf]
  rw [List.take_of_length_le]
  simp only [List.length_append, hname, hend, estHttpReqTotalLen, estHttpHdrMax,
    estHttpReqDataMax]
  omega

theorem dropWhile_groups {src : Bytes} (hne : src ≠ []) :
    (groups src).dropWhile isspace = groups src ∧ groups src ≠ [] := by
  have hlen := groups_length src
  have hpos := List.length_pos_iff.mpr hne
  cases htext : groups src with
  | nil =>
    rw [htext, List.length_nil] at hlen
    omega
  | cons c rest =>
    have hprint := (groups_printable src c (by rw [htext]; simp)).2.1
    rw [List.dropWhile_cons, hprint]
    exact ⟨rfl, by simp⟩

/-- Behind the name of a scheme and the space after it stands the text. -/
theorem drop_scheme {scheme src : Bytes} (hscheme : scheme.length = 5 ∨ scheme.length = 6)
    (hne : src ≠ []) :
    ((scheme ++ [32] ++ base64Text false src).drop 6).dropWhile isspace = base64Text false src := by
  have hkeep : (base64Text false src).dropWhile isspace = base64Text false src :=
    (dropWhile_groups hne).1
  rcases hscheme with hfive | hsix
  · have hlen : (scheme ++ [32]).length = 6 := by
      rw [List.length_append, hfive]
      rfl
    rw [← hlen, List.drop_left, hkeep]
  · rw [List.append_assoc, ← hsix, List.drop_left, List.cons_append, List.nil_append,
      List.dropWhile_cons_of_pos (by decide), hkeep]

end Header

section Basic

variable {bioRead : BioRead} (hread : ReadsBack bioRead)

/-- The credentials of a client fit the buffers of both sides. -/
structure FitsBasic (user pwd : Bytes) : Prop where
  named : 1 ≤ user.length
  userLen : user.length ≤ 254
  pwdLen : pwd.length ≤ 254
  userZero : (0 : UInt8) ∉ user
  pwdZero : (0 : UInt8) ∉ pwd
  userColon : colon ∉ user

theorem basicValue_text {ctx : ClientCtx} {user pwd : Bytes}
    (hcredentials : basicCredentials ctx = (user, pwd)) (hfits : FitsBasic user pwd) :
    basicValue ctx =
      some (ascii "Basic" ++ [32] ++ base64Text false (user ++ colon :: pwd)) := by
  have hboth : user ++ ascii ":" ++ pwd = user ++ colon :: pwd := by
    rw [show ascii ":" = [colon] from by decide, List.append_assoc]
    rfl
  have hlen : (user ++ colon :: pwd).length = user.length + pwd.length + 1 := by
    rw [List.length_append, List.length_cons]
    omega
  have huser := hfits.userLen
  have hpwd := hfits.pwdLen
  have htext : (base64Text false (user ++ colon :: pwd)).length =
      ((user ++ colon :: pwd).length + 2) / 3 * 4 := groups_length _
  simp only [basicValue, hcredentials, hboth, snprintf, maxUidpwd]
  rw [List.take_of_length_le (by omega), estBase64Encode, if_neg (by omega), if_neg (by simp),
    if_pos (by omega)]
  rfl

include hread in
theorem basic_roundtrip {ctx : ClientCtx} {user pwd : Bytes}
    (hcredentials : basicCredentials ctx = (user, pwd)) (hfits : FitsBasic user pwd) :
    ∃ value, basicValue ctx = some value ∧ value.length ≤ 700 ∧
      ∀ ah, mgParseAuthHdrBasic bioRead value ah =
        { ah with user := some user, pwd := some pwd, mode := .basic } := by
  have hne : user ++ colon :: pwd ≠ [] := by simp
  have hlen : (user ++ colon :: pwd).length = user.length + pwd.length + 1 := by
    rw [List.length_append, List.length_cons]
    omega
  have huser := hfits.userLen
  have hpwd := hfits.pwdLen
  have hscheme : (ascii "Basic").length = 5 := by decide
  refine ⟨_, basicValue_text hcredentials hfits, ?_, ?_⟩
  · have htext : (base64Text false (user ++ colon :: pwd)).length =
        ((user ++ colon :: pwd).length + 2) / 3 * 4 := groups_length _
    rw [List.length_append, List.length_append, hscheme, htext, hlen, List.length_singleton]
    omega
  · intro ah
    apply mgParseAuthHdrBasic_decoded
    · rw [drop_scheme (Or.inl hscheme) hne]
      apply estBase64Decode_of_le hread hne
      unfold maxUidpwd
      omega
    · unfold maxUidpwd
      omega
    · exact Nat.le_trans huser (by decide)
    · exact Nat.le_trans hpwd (by decide)
    · exact hfits.userZero
    · exact hfits.pwdZero
    · exact hfits.userColon
    · exact List.ne_nil_of_length_pos hfits.named

end Basic

section Bearer

variable {bioRead : BioRead} (hread : ReadsBack bioRead)

structure FitsBearer (token : Bytes) : Prop where
  present : 1 ≤ token.length
  len : token.length ≤ maxAuthTokenLen
  zero : (0 : UInt8) ∉ token

theorem bearerValue_text {ctx : ClientCtx} {token : Bytes}
    (htoken : (appCredentials ctx .token).authToken = some token) (hfits : FitsBearer token) :
    bearerValue ctx = some (ascii "Bearer" ++ [32] ++ base64Text false token) := by
  have hpresent := hfits.present
  have hlen := hfits.len
  have hne : token ≠ [] := List.ne_nil_of_length_pos hpresent
  have htext : (base64Text false token).length = (token.length + 2) / 3 * 4 := groups_length _
  have hwhole : tokenText ctx = token := by
    simp only [tokenText, htoken]
    exact if_neg (Nat.not_lt.mpr hlen)
  unfold maxAuthTokenLen at hlen
  simp only [bearerValue, hwhole, maxAuthTokenLen]
  rw [List.take_of_length_le hlen, estBase64Encode, if_neg (by omega), if_neg hne,
    if_pos (by omega)]
  rfl

include hread in
theorem bearer_roundtrip {ctx : ClientCtx} {token : Bytes}
    (htoken : (appCredentials ctx .token).authToken = some token) (hfits : FitsBearer token) :
    ∃ value, bearerValue ctx = some value ∧ value.length ≤ 700 ∧
      ∀ ah, mgParseAuthHdrToken bioRead value ah =
        { ah with authToken := some token, mode := .token } := by
  have hlen := hfits.len
  have hne : token ≠ [] := List.ne_nil_of_length_pos hfits.present
  have hscheme : (ascii "Bearer").length = 6 := by decide
  have hdrop := drop_scheme (Or.inr hscheme) hne
  refine ⟨_, bearerValue_text htoken hfits, ?_, ?_⟩
  · have htext : (base64Text false token).length = (token.length + 2) / 3 * 4 := groups_length _
    unfold maxAuthTokenLen at hlen
    rw [List.length_append, List.length_append, hscheme, htext, List.length_singleton]
    omega
  · intro ah
    apply mgParseAuthHdrToken_decoded ah _ hne hlen hfits.zero
    · rw [hdrop]
      exact (dropWhile_groups hne).2
    · rw [hdrop]
      apply estBase64Decode_of_le hread hne
      omega

end Bearer

/-- A Basic or a Bearer header is read by the server as the credentials that the
client had: for every user name without a colon and every password, and for every
token, of the lengths that the interface allows. The split of the two texts is
the one that the tokenizer makes. -/
theorem credentials_roundtrip {bioRead : BioRead} (hread : ReadsBack bioRead) (env : AuthEnv)
    (ctx : ClientCtx) (uri : Bytes) :
    (∀ user pwd, ctx.authMode = .basic → basicCredentials ctx = (user, pwd) →
      FitsBasic user pwd → ∃ value, authLine env ctx uri = .value value ∧
        (∀ hdr : Bytes, hdr.length ≤ estHttpReqDataMax → estClientAddAuthHdr env ctx hdr uri =
          some (hdr ++ (ascii "Authorization: " ++ value ++ crlf))) ∧
        (∀ ah, mgParseAuthHdrBasic bioRead value ah =
          { ah with user := some user, pwd := some pwd, mode := .basic }) ∧
        let both := user ++ colon :: pwd
        (strtokS [colon] both both.length).token = some user ∧
          (strtokS [colon] both both.length).ptr = some pwd) ∧
    (∀ token, ctx.authMode = .token → (appCredentials ctx .token).authToken = some token →
      FitsBearer token → ∃ value, authLine env ctx uri = .value value ∧
        (∀ hdr : Bytes, hdr.length ≤ estHttpReqDataMax → estClientAddAuthHdr env ctx hdr uri =
          some (hdr ++ (ascii "Authorization: " ++ value ++ crlf))) ∧
        ∀ ah, mgParseAuthHdrToken bioRead value ah =
          { ah with authToken := some token, mode := .token }) := by
  constructor
  · intro user pwd hmode hcredentials hfits
    obtain ⟨value, hvalue, hshort, hparse⟩ := basic_roundtrip hread hcredentials hfits
    have hline : authLine env ctx uri = .value value := by
      simp only [authLine, hmode, hvalue, Option.map_some, Option.getD_some]
    refine ⟨value, hline, ?_, hparse, ?_⟩
    · intro hdr hroom
      exact estClientAddAuthHdr_value hline hshort hroom
    · exact strtokS_colon (span_colon hfits.userColon pwd)
        (List.ne_nil_of_length_pos hfits.named)
  · intro token hmode htoken hfits
    obtain ⟨value, hvalue, hshort, hparse⟩ := bearer_roundtrip hread htoken hfits
    have hline : authLine env ctx uri = .value value := by
      simp only [authLine, hmode, hvalue, Option.map_some, Option.getD_some]
    refine ⟨value, hline, ?_, hparse⟩
    intro hdr hroom
    exact estClientAddAuthHdr_value hline hshort hroom

/-- A password that begins with a colon and has another one in it, and a token. -/
theorem credentials_roundtrip_alice :
    (∃ value, authLine hostEnv { hostCtx with authMode := .basic } estCsrAttrsUri = .value value ∧
      mgParseAuthHdrBasic readBase64 value estCreateAh =
        { estCreateAh with
          user := some (ascii "alice"), pwd := some (ascii ":se:cret"), mode := .basic }) ∧
    ∃ value, authLine hostEnv { hostCtx with authMode := .token } estCsrAttrsUri = .value value ∧
      mgParseAuthHdrToken readBase64 value estCreateAh =
        { estCreateAh with authToken := some (ascii "token"), mode := .token } := by
  have hbasic : FitsBasic (ascii "alice") (ascii ":se:cret") :=
    ⟨by decide, by decide, by decide, by decide, by decide, by decide⟩
  have hbearer : FitsBearer (ascii "token") := ⟨by decide, by decide, by decide⟩
  constructor
  · obtain ⟨value, hline, -, hparse, -⟩ := (credentials_roundtrip readBase64_readsBack hostEnv
      { hostCtx with authMode := .basic } estCsrAttrsUri).1 _ _ rfl rfl hbasic
    exact ⟨value, hline, hparse estCreateAh⟩
  · obtain ⟨value, hline, -, hparse⟩ := (credentials_roundtrip readBase64_readsBack hostEnv
      { hostCtx with authMode := .token } estCsrAttrsUri).2 _ rfl rfl hbearer
    exact ⟨value, hline, hparse estCreateAh⟩

end LibEst.Client.AuthRoundTrip
