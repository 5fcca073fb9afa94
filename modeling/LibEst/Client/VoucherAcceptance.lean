import LibEst.Client.ReferenceEnv
import LibEst.Client.Voucher

/-! Which vouchers a pledge takes. What a voucher is to say is a matter of the members of
one JSON object; the client looks at the tokens of the whole text instead, and reports no
length for the certificate that it stores. -/
namespace LibEst.Client.VoucherAcceptance

open LibEst.Basic LibEst.OpenSsl LibEst.Lib.ByteString LibEst.Server.Reference
open LibEst.Client.Context LibEst.Client.AuthHeader LibEst.Client.Request LibEst.Client.Jsmn
open LibEst.Client.Voucher LibEst.Client.ReferenceEnv

section Json

/-- The code unit of an escape sequence with four digits, and the text behind it. -/
def codeUnit : Bytes → Option (Nat × Bytes)
  | slash :: letter :: a :: b :: c :: d :: rest =>
      if slash = backslash ∧ letter = 117 ∧ [a, b, c, d].all isHex then
        some ([a, b, c, d].foldl (fun n digit => n * 16 +
          (if digit ≤ 57 then digit.toNat - 48
          else if digit ≤ 70 then digit.toNat - 55 else digit.toNat - 87)) 0, rest)
      else none
  | _ => none

/-- The character that an escape of one letter stands for. -/
def escaped (letter : UInt8) : UInt8 :=
  if letter = 98 then 8
  else if letter = 102 then 12
  else if letter = 110 then 10
  else if letter = 114 then 13
  else if letter = 116 then 9
  else letter

/-- The text that the inside of a string stands for. -/
def unescape : Nat → Bytes → Bytes
  | 0, _ => []
  | fuel + 1, text =>
      match codeUnit text, text with
      | some (unit, rest), _ =>
          match codeUnit rest with
          | some (low, behind) =>
              if 0xD800 ≤ unit ∧ unit < 0xDC00 ∧ 0xDC00 ≤ low ∧ low < 0xE000 then
                String.utf8EncodeChar
                  (Char.ofNat (0x10000 + (unit - 0xD800) * 0x400 + (low - 0xDC00))) ++
                    unescape fuel behind
              else String.utf8EncodeChar (Char.ofNat unit) ++ unescape fuel rest
          | none => String.utf8EncodeChar (Char.ofNat unit) ++ unescape fuel rest
      | none, [] => []
      | none, [c] => [c]
      | none, c :: letter :: rest =>
          if c = backslash then escaped letter :: unescape fuel rest
          else c :: unescape fuel (letter :: rest)

def stringText (text : Bytes) : Bytes := unescape text.length text

example : stringText (ascii "a\\u0062\\/\\ud83d\\ude00") = ascii "ab/" ++ [0xF0, 0x9F, 0x98, 0x80] := by
  decide +kernel

/-- One value is somewhere in another one. -/
def Inside (outer inner : JsmnTok) : Prop :=
  outer.start < inner.start ∧ inner.start < outer.stop.getD 0

instance (outer inner : JsmnTok) : Decidable (Inside outer inner) :=
  inferInstanceAs (Decidable (_ ∧ _))

/-- The tokens that are in a value, and in no other one that is in it. -/
def children (tokens : List JsmnTok) (outer : JsmnTok) : List JsmnTok :=
  tokens.filter fun tok => Inside outer tok ∧ ∀ mid ∈ tokens, ¬ (Inside outer mid ∧ Inside mid tok)

/-- A name and a value at a time. -/
def pairs : List JsmnTok → List (JsmnTok × JsmnTok)
  | name :: value :: rest => (name, value) :: pairs rest
  | _ => []

variable (content : Bytes) (tokens : List JsmnTok)

/-- A member of an object. -/
def Member (object : JsmnTok) (name : Bytes) (value : JsmnTok) : Prop :=
  object.type = .object ∧ ∃ tok, (tok, value) ∈ pairs (children tokens object) ∧
    tok.type = .string ∧ stringText (tokenText content tok) = name

/-- A value that is a string. -/
def Says (value : JsmnTok) (text : Bytes) : Prop :=
  value.type = .string ∧ stringText (tokenText content value) = text

/-- The object at the top, or the one that it names as the voucher. -/
def VoucherObject (object : JsmnTok) : Prop :=
  ∃ root, tokens.head? = some root ∧
    (object = root ∨ Member content tokens root (ascii "ietf-voucher:voucher") object)

end Json

section Purpose

variable (env : PledgeEnv)

/-- What the data of a voucher are to say. -/
structure ContentAcceptable (p : Pledge) (sentNonce content : Bytes) (tokens : List JsmnTok)
    (object : JsmnTok) : Prop where
  serial : ∃ value serNum, Member content tokens object (ascii "serial-number") value ∧
    Says content value serNum ∧ p.clientCertSerNum = some serNum
  nonce : ∀ value, Member content tokens object (ascii "nonce") value →
    Says content value sentNonce
  cacert : ∃ value text certs, Member content tokens object (ascii "pinned-domain-cert") value ∧
    Says content value text ∧ env.verifyCacertResp text = .ok certs

/-- The voucher that a pledge should take. The tokens are those of the whole text. -/
structure Acceptable (p : Pledge) (sentNonce body : Bytes) : Prop where
  isPkcs7 : env.isPkcs7 body = true
  verified : env.pkcs7Verify p.client.trustedCerts body = true
  content : ∃ tokens object,
    jsmnParse ((env.pkcs7Content body).length + 1) (env.pkcs7Content body) = .ok tokens ∧
      VoucherObject (env.pkcs7Content body) tokens object ∧
      ContentAcceptable env p sentNonce (env.pkcs7Content body) tokens object

/-- The context of a client that has received a voucher. -/
def received (p : Pledge) (body : Bytes) : Pledge :=
  { p with brskiRetrievedVoucher := some ⟨body, true⟩ }

/-- The voucher is taken just where it should be, and then the length is that of the
certificate that is stored. -/
def AcceptsExactly (p : Pledge) (sentNonce body : Bytes) : Prop :=
  ∃ next got, brskiParseVoucher env (received p body) sentNonce = some (next, got) ∧
    (got.rv = .none ↔ Acceptable env p sentNonce body) ∧
    (got.rv = .none → ∃ certs, next.brskiRetrievedCacert = some certs ∧
      got.cacertLen = some certs.length)

end Purpose

section Reading

variable (content : Bytes) (size : Nat) (tokens : List JsmnTok) (name : Bytes)

/-- What is found under a name: the text of the token behind the first string that reads
like it, wherever the two stand. Behind the last token there is nothing, as long as the
array has room. -/
inductive Reads : Option Bytes → Prop
  | absent (h : ∀ tok ∈ tokens.tail, ¬ jsoneq content tok name) : Reads none
  | value (before : List JsmnTok) (tok value : JsmnTok) (behind : List JsmnTok)
      (htail : tokens.tail = before ++ tok :: value :: behind)
      (hbefore : ∀ other ∈ before, ¬ jsoneq content other name) (htok : jsoneq content tok name) :
      Reads (some ((tokenText content value).take (size - 1)))
  | last (before : List JsmnTok) (tok : JsmnTok) (htail : tokens.tail = before ++ [tok])
      (hbefore : ∀ other ∈ before, ¬ jsoneq content other name) (htok : jsoneq content tok name)
      (hroom : tokens.length < tokcount) : Reads (some [])

variable {content size tokens name}

theorem dropWhile_split {before : List JsmnTok} {tok : JsmnTok} {behind : List JsmnTok}
    (htail : tokens.tail = before ++ tok :: behind)
    (hbefore : ∀ other ∈ before, ¬ jsoneq content other name) (htok : jsoneq content tok name) :
    (tokens.tail.dropWhile fun tok => ¬ jsoneq content tok name) = tok :: behind := by
  rw [htail, List.dropWhile_append_of_pos, List.dropWhile_cons_of_neg]
  · simp [htok]
  · intro other hmem
    simpa using hbefore other hmem

theorem retrieve_iff (found : Option Bytes) :
    retrieveTokenFromVoucher content size tokens name = some found ↔
      Reads content size tokens name found := by
  unfold retrieveTokenFromVoucher
  constructor
  · intro h
    have hsplit := List.takeWhile_append_dropWhile (l := tokens.tail)
      (p := fun tok => decide ¬ jsoneq content tok name = true)
    have hbefore : ∀ other ∈ tokens.tail.takeWhile fun tok => decide ¬ jsoneq content tok name = true,
        ¬ jsoneq content other name := by
      intro other hmem
      simpa using List.mem_takeWhile_imp hmem
    have hhead := List.head?_dropWhile_not
      (fun tok => decide ¬ jsoneq content tok name = true) tokens.tail
    generalize (tokens.tail.takeWhile fun tok => decide ¬ jsoneq content tok name = true) = before
      at hsplit hbefore
    generalize (tokens.tail.dropWhile fun tok => decide ¬ jsoneq content tok name = true) = found
      at h hsplit hhead
    cases found with
    | nil =>
      cases h
      apply Reads.absent
      rwa [← hsplit, List.append_nil]
    | cons tok rest =>
      have htok : jsoneq content tok name := by simpa using hhead
      cases rest with
      | nil =>
        dsimp only at h
        by_cases hroom : tokens.length < tokcount
        · rw [if_pos hroom] at h
          cases h
          exact Reads.last before tok hsplit.symm hbefore htok hroom
        · rw [if_neg hroom] at h
          cases h
      | cons value behind =>
        cases h
        exact Reads.value before tok value behind hsplit.symm hbefore htok
  · intro h
    cases h with
    | absent h =>
      have hdrop : (tokens.tail.dropWhile fun tok => decide ¬ jsoneq content tok name = true) = [] := by
        apply List.dropWhile_eq_nil_iff.mpr
        intro tok hmem
        simpa using h tok hmem
      rw [hdrop]
    | value before tok value behind htail hbefore htok =>
      rw [dropWhile_split htail hbefore htok]
      rfl
    | last before tok htail hbefore htok hroom =>
      rw [dropWhile_split htail hbefore htok]
      exact if_pos hroom

end Reading

section Refusals

variable (env : PledgeEnv) (own : Option Bytes) (sentNonce : Bytes)

/-- What is found of the nonce, and passes. -/
def NoncePasses (content : Bytes) (tokens : List JsmnTok) : Prop :=
  ∃ nonce, Reads content (estBrskiVoucherReqNonceSize + 2) tokens (ascii "nonce") nonce ∧
    checkNonce sentNonce nonce = .none

def SerialPasses (content : Bytes) (tokens : List JsmnTok) : Prop :=
  ∃ serNum, Reads content (estBrskiMaxSerNumLen + 2) tokens (ascii "serial-number") serNum ∧
    checkSerNum own serNum = .none

/-- Why the tokens of a voucher are turned down. -/
inductive TokensRefused (content : Bytes) (tokens : List JsmnTok) : Prop
  | nonce (nonce : Option Bytes)
      (hnonce : Reads content (estBrskiVoucherReqNonceSize + 2) tokens (ascii "nonce") nonce)
      (hcheck : checkNonce sentNonce nonce ≠ .none)
  | serial (hpasses : NoncePasses sentNonce content tokens) (serNum : Option Bytes)
      (hserial : Reads content (estBrskiMaxSerNumLen + 2) tokens (ascii "serial-number") serNum)
      (hcheck : checkSerNum own serNum ≠ .none)
  | noCert (hpasses : NoncePasses sentNonce content tokens)
      (hserial : SerialPasses own content tokens)
      (hcert : Reads content (estBrskiMaxCacertLen + 1) tokens (ascii "pinned-domain-cert") none)
  | cert (hpasses : NoncePasses sentNonce content tokens)
      (hserial : SerialPasses own content tokens) (cert : Bytes)
      (hcert : Reads content (estBrskiMaxCacertLen + 1) tokens (ascii "pinned-domain-cert")
        (some cert))
      (hshort : cert.length < estBrskiMaxCacertLen) (rv : EstError)
      (hverify : env.verifyCacertResp cert = .error rv)

/-- Why a voucher is turned down. -/
inductive Refused (p : Pledge) (body : Bytes) : Prop
  | notPkcs7 (h : env.isPkcs7 body = false)
  | notVerified (hpkcs7 : env.isPkcs7 body = true)
      (h : env.pkcs7Verify p.client.trustedCerts body = false)
  | notJson (hpkcs7 : env.isPkcs7 body = true)
      (hverified : env.pkcs7Verify p.client.trustedCerts body = true) (err : JsmnError)
      (h : jsmnParse tokcount (env.pkcs7Content body) = .error err)
  | tokens (hpkcs7 : env.isPkcs7 body = true)
      (hverified : env.pkcs7Verify p.client.trustedCerts body = true) (tokens : List JsmnTok)
      (hparse : jsmnParse tokcount (env.pkcs7Content body) = .ok tokens)
      (h : TokensRefused env p.clientCertSerNum sentNonce (env.pkcs7Content body) tokens)

variable {env sentNonce} {p : Pledge} {body : Bytes}

/-- The certificates that the check lets through are some, and its errors are errors. -/
structure SoundResponses (env : PledgeEnv) : Prop where
  some_certs : ∀ text certs, env.verifyCacertResp text = .ok certs → certs ≠ []
  errors : ∀ text rv, env.verifyCacertResp text = .error rv → rv ≠ .none

section Stages

variable {content : Bytes} {tokens : List JsmnTok}

theorem parseTokens_nonce {nonce : Option Bytes}
    (hnonce : Reads content (estBrskiVoucherReqNonceSize + 2) tokens (ascii "nonce") nonce)
    (hcheck : checkNonce sentNonce nonce ≠ .none) :
    parseTokens env p sentNonce content tokens = some (p, checkNonce sentNonce nonce) := by
  unfold parseTokens
  rw [(retrieve_iff nonce).mpr hnonce]
  exact if_pos hcheck

theorem parseTokens_serial (hpasses : NoncePasses sentNonce content tokens) {serNum : Option Bytes}
    (hserial : Reads content (estBrskiMaxSerNumLen + 2) tokens (ascii "serial-number") serNum)
    (hcheck : checkSerNum p.clientCertSerNum serNum ≠ .none) :
    parseTokens env p sentNonce content tokens =
      some (p, checkSerNum p.clientCertSerNum serNum) := by
  obtain ⟨nonce, hnonce, hpass⟩ := hpasses
  unfold parseTokens
  rw [(retrieve_iff nonce).mpr hnonce, Option.bind_eq_bind, Option.bind_some,
    if_neg (not_not.mpr hpass), (retrieve_iff serNum).mpr hserial]
  exact if_pos hcheck

/-- With the nonce and the serial number as they should be, the certificate decides. -/
theorem parseTokens_noCert (hpasses : NoncePasses sentNonce content tokens)
    (hserial : SerialPasses p.clientCertSerNum content tokens)
    (hcert : Reads content (estBrskiMaxCacertLen + 1) tokens (ascii "pinned-domain-cert") none) :
    parseTokens env p sentNonce content tokens = some (p, .noCert) := by
  obtain ⟨nonce, hnonce, hpass⟩ := hpasses
  obtain ⟨serNum, hread, hfits⟩ := hserial
  unfold parseTokens
  rw [(retrieve_iff nonce).mpr hnonce, Option.bind_eq_bind, Option.bind_some,
    if_neg (not_not.mpr hpass), (retrieve_iff serNum).mpr hread, (retrieve_iff none).mpr hcert]
  exact if_neg (not_not.mpr hfits)

theorem parseTokens_cert (hpasses : NoncePasses sentNonce content tokens)
    (hserial : SerialPasses p.clientCertSerNum content tokens) {cert : Bytes}
    (hcert : Reads content (estBrskiMaxCacertLen + 1) tokens (ascii "pinned-domain-cert")
      (some cert))
    (hshort : cert.length < estBrskiMaxCacertLen) :
    parseTokens env p sentNonce content tokens = some (storeCacert env p cert) := by
  obtain ⟨nonce, hnonce, hpass⟩ := hpasses
  obtain ⟨serNum, hread, hfits⟩ := hserial
  have hroom : ¬ estBrskiMaxCacertLen ≤ cert.length := Nat.not_le_of_lt hshort
  unfold parseTokens
  rw [(retrieve_iff nonce).mpr hnonce, Option.bind_eq_bind, Option.bind_some,
    if_neg (not_not.mpr hpass), (retrieve_iff serNum).mpr hread,
    (retrieve_iff (some cert)).mpr hcert]
  dsimp only [Option.bind_eq_bind, Option.bind_some]
  rw [if_neg (not_not.mpr hfits), if_neg hroom]
  rfl

theorem storeCacert_error {cert : Bytes} {rv : EstError}
    (h : env.verifyCacertResp cert = .error rv) :
    storeCacert env p cert = ({ p with brskiRetrievedCacert := none }, rv) := by
  unfold storeCacert
  rw [h]

theorem storeCacert_ok {cert certs : Bytes} (h : env.verifyCacertResp cert = .ok certs) :
    storeCacert env p cert = ({ p with brskiRetrievedCacert := some certs }, .none) := by
  unfold storeCacert
  rw [h]

/-- A voucher whose tokens are turned down leads to an error. -/
theorem parseTokens_of_refused (henv : SoundResponses env)
    (h : TokensRefused env p.clientCertSerNum sentNonce content tokens) :
    ∃ next rv, parseTokens env p sentNonce content tokens = some (next, rv) ∧ rv ≠ .none := by
  cases h with
  | nonce nonce hnonce hcheck => exact ⟨_, _, parseTokens_nonce hnonce hcheck, hcheck⟩
  | serial hpasses serNum hserial hcheck =>
    exact ⟨_, _, parseTokens_serial hpasses hserial hcheck, hcheck⟩
  | noCert hpasses hserial hcert =>
    exact ⟨_, _, parseTokens_noCert hpasses hserial hcert, by decide⟩
  | cert hpasses hserial cert hcert hshort rv hverify =>
    have hparse := @parseTokens_cert env sentNonce p content tokens hpasses hserial cert hcert hshort
    rw [storeCacert_error hverify] at hparse
    exact ⟨_, _, hparse, henv.errors cert rv hverify⟩

/-- One that is not is taken, and the certificate stored, or the behaviour is undefined. -/
theorem parseTokens_of_not_refused {next : Pledge} {rv : EstError}
    (hparse : parseTokens env p sentNonce content tokens = some (next, rv))
    (h : ¬ TokensRefused env p.clientCertSerNum sentNonce content tokens) :
    rv = .none ∧ ∃ cert certs, env.verifyCacertResp cert = .ok certs ∧
      next.brskiRetrievedCacert = some certs := by
  unfold parseTokens at hparse
  obtain ⟨nonce, hnonce, hparse⟩ := Option.bind_eq_some_iff.mp hparse
  have hread := (retrieve_iff nonce).mp hnonce
  by_cases hpass : checkNonce sentNonce nonce = .none
  · have hpasses : NoncePasses sentNonce content tokens := ⟨nonce, hread, hpass⟩
    rw [if_neg (not_not.mpr hpass)] at hparse
    obtain ⟨serNum, hserNum, hparse⟩ := Option.bind_eq_some_iff.mp hparse
    have hread' := (retrieve_iff serNum).mp hserNum
    by_cases hfits : checkSerNum p.clientCertSerNum serNum = .none
    · have hserial : SerialPasses p.clientCertSerNum content tokens := ⟨serNum, hread', hfits⟩
      rw [if_neg (not_not.mpr hfits)] at hparse
      obtain ⟨found, hfound, hparse⟩ := Option.bind_eq_some_iff.mp hparse
      have hcert := (retrieve_iff found).mp hfound
      cases found with
      | none => exact absurd (.noCert hpasses hserial hcert) h
      | some cert =>
        dsimp only at hparse
        by_cases hlong : estBrskiMaxCacertLen ≤ cert.length
        · rw [if_pos hlong] at hparse
          cases hparse
        · rw [if_neg hlong] at hparse
          cases hverify : env.verifyCacertResp cert with
          | error rv' =>
            exact absurd (.cert hpasses hserial cert hcert (Nat.lt_of_not_le hlong) rv' hverify) h
          | ok certs =>
            rw [storeCacert_ok hverify] at hparse
            cases hparse
            exact ⟨rfl, cert, certs, hverify, rfl⟩
    · exact absurd (.serial hpasses serNum hread' hfits) h
  · exact absurd (.nonce nonce hread hpass) h

end Stages

section Signed

variable (hpkcs7 : env.isPkcs7 body = true)
  (hverified : env.pkcs7Verify p.client.trustedCerts body = true)
include hpkcs7 hverified

/-- With the signature as it should be, its data take the place of the voucher. -/
theorem brskiParseVoucher_notJson {err : JsmnError}
    (h : jsmnParse tokcount (env.pkcs7Content body) = .error err) :
    brskiParseVoucher env (received p body) sentNonce =
      some ({ p with brskiRetrievedVoucher := some ⟨env.pkcs7Content body, false⟩ },
        ⟨.malloc, some 0⟩) := by
  unfold brskiParseVoucher received verifyVoucher
  dsimp only
  rw [if_neg (not_not.mpr hpkcs7), if_neg (not_not.mpr hverified)]
  dsimp only
  rw [h]

theorem brskiParseVoucher_tokens {tokens : List JsmnTok}
    (h : jsmnParse tokcount (env.pkcs7Content body) = .ok tokens) :
    brskiParseVoucher env (received p body) sentNonce =
      (parseTokens env { p with brskiRetrievedVoucher := some ⟨env.pkcs7Content body, false⟩ }
        sentNonce (env.pkcs7Content body) tokens).map fun result =>
          (result.1, ⟨result.2, some 0⟩) := by
  unfold brskiParseVoucher received verifyVoucher
  dsimp only
  rw [if_neg (not_not.mpr hpkcs7), if_neg (not_not.mpr hverified)]
  dsimp only
  rw [h]

end Signed

theorem parse_of_refused (henv : SoundResponses env) (h : Refused env sentNonce p body) :
    ∃ next rv, brskiParseVoucher env (received p body) sentNonce = some (next, ⟨rv, some 0⟩) ∧
      rv ≠ .none := by
  cases h with
  | notPkcs7 h =>
    refine ⟨received p body, .loadCacerts, ?_, by decide⟩
    unfold brskiParseVoucher received verifyVoucher
    dsimp only
    rw [if_pos (by rw [h]; decide)]
  | notVerified hpkcs7 h =>
    refine ⟨received p body, .clientBrskiVoucherVerifyFailed, ?_, by decide⟩
    unfold brskiParseVoucher received verifyVoucher
    dsimp only
    rw [if_neg (not_not.mpr hpkcs7), if_pos (by rw [h]; decide)]
  | notJson hpkcs7 hverified err h =>
    exact ⟨_, _, brskiParseVoucher_notJson hpkcs7 hverified h, by decide⟩
  | tokens hpkcs7 hverified tokens hparse h =>
    obtain ⟨next, rv, hresult, hrv⟩ := @parseTokens_of_refused env sentNonce
      { p with brskiRetrievedVoucher := some ⟨env.pkcs7Content body, false⟩ } _ _ henv h
    refine ⟨next, rv, ?_, hrv⟩
    rw [brskiParseVoucher_tokens hpkcs7 hverified hparse, hresult, Option.map_some]

theorem parse_of_not_refused {next : Pledge} {got : Got}
    (hparse : brskiParseVoucher env (received p body) sentNonce = some (next, got))
    (h : ¬ Refused env sentNonce p body) :
    got = ⟨.none, some 0⟩ ∧ ∃ cert certs, env.verifyCacertResp cert = .ok certs ∧
      next.brskiRetrievedCacert = some certs := by
  have hpkcs7 : env.isPkcs7 body = true := by
    by_contra hnot
    exact h (.notPkcs7 (Bool.eq_false_of_not_eq_true hnot))
  have hverified : env.pkcs7Verify p.client.trustedCerts body = true := by
    by_contra hnot
    exact h (.notVerified hpkcs7 (Bool.eq_false_of_not_eq_true hnot))
  cases htokens : jsmnParse tokcount (env.pkcs7Content body) with
  | error err => exact absurd (.notJson hpkcs7 hverified err htokens) h
  | ok tokens =>
    rw [brskiParseVoucher_tokens hpkcs7 hverified htokens] at hparse
    obtain ⟨result, hresult, hpair⟩ := Option.map_eq_some_iff.mp hparse
    have hnot := fun hrefused => h (.tokens hpkcs7 hverified tokens htokens hrefused)
    obtain ⟨hrv, hcerts⟩ := parseTokens_of_not_refused hresult hnot
    rw [Prod.mk.injEq] at hpair
    rw [← hpair.1, ← hpair.2, hrv]
    exact ⟨rfl, hcerts⟩

end Refusals

section Instances

/-- The data of a voucher as the example server writes it, with line feeds in the text of
the certificate. -/
def voucherContent : Bytes :=
  ascii "\x7b\n\r\"ietf-voucher:voucher\":\x7b\n\r\"nonce\":\"30313233343536373839616263646566\",\n\r" ++
    ascii "\"assertion\":\"logging\",\n\r\"pinned-domain-cert\":\"" ++ caCerts ++
    ascii "\",\n\r\"serial-number\":\"JADA123\"\x7d\n\r\x7d"

/-- Signed data around them, with the certificate of the signer `CN=masa` and its ECDSA
signature with SHA-256. -/
def voucherCms : Bytes :=
  [48, 130, 4, 74, 6, 9, 42, 134, 72, 134, 247, 13, 1, 7, 2, 160, 130, 4, 59, 48, 130, 4, 55, 2, 1,
   1, 49, 15, 48, 13, 6, 9, 96, 134, 72, 1, 101, 3, 4, 2, 1, 5, 0, 48, 130, 2, 144, 6, 9, 42, 134,
   72, 134, 247, 13, 1, 7, 1, 160, 130, 2, 129, 4, 130, 2, 125] ++
    voucherContent ++
    [160, 130, 1, 10, 48, 130, 1, 6, 48, 129, 174, 2, 1, 1, 48, 10, 6, 8, 42, 134, 72, 206, 61, 4,
     3, 2, 48, 15, 49, 13, 48, 11, 6, 3, 85, 4, 3, 12, 4, 109, 97, 115, 97, 48, 32, 23, 13, 50, 54,
     49, 49, 49, 56, 49, 52, 49, 52, 51, 55, 90, 24, 15, 50, 49, 50, 54, 49, 48, 50, 53, 49, 52,
     49, 52, 51, 55, 90, 48, 15, 49, 13, 48, 11, 6, 3, 85, 4, 3, 12, 4, 109, 97, 115, 97, 48, 89,
     48, 19, 6, 7, 42, 134, 72, 206, 61, 2, 1, 6, 8, 42, 134, 72, 206, 61, 3, 1, 7, 3, 66, 0, 4,
     250, 175, 199, 210, 218, 234, 195, 224, 140, 155, 249, 73, 186, 114, 64, 136, 227, 190, 115,
     32, 192, 205, 141, 252, 112, 125, 195, 63, 226, 77, 80, 189, 21, 16, 5, 42, 222, 82, 138, 140,
     205, 193, 8, 127, 198, 67, 23, 235, 81, 161, 103, 180, 129, 220, 103, 28, 129, 103, 182, 103,
     98, 128, 65, 129, 48, 10, 6, 8, 42, 134, 72, 206, 61, 4, 3, 2, 3, 71, 0, 48, 68, 2, 32, 91,
     172, 180, 213, 183, 34, 150, 141, 177, 25, 88, 222, 163, 234, 85, 242, 2, 69, 59, 199, 22,
     115, 81, 235, 217, 3, 189, 13, 1, 160, 70, 11, 2, 32, 8, 23, 76, 3, 226, 38, 195, 212, 239,
     80, 167, 182, 103, 254, 213, 126, 242, 209, 59, 75, 18, 106, 109, 134, 179, 2, 131, 20, 34,
     33, 233, 71, 49, 127, 48, 125, 2, 1, 1, 48, 20, 48, 15, 49, 13, 48, 11, 6, 3, 85, 4, 3, 12, 4,
     109, 97, 115, 97, 2, 1, 1, 48, 13, 6, 9, 96, 134, 72, 1, 101, 3, 4, 2, 1, 5, 0, 48, 10, 6, 8,
     42, 134, 72, 206, 61, 4, 3, 2, 4, 71, 48, 69, 2, 32, 103, 34, 65, 141, 241, 250, 51, 74, 134,
     2, 233, 11, 193, 137, 84, 69, 11, 66, 214, 131, 10, 190, 97, 140, 220, 230, 255, 138, 90, 105,
     232, 179, 2, 33, 0, 196, 2, 192, 76, 162, 28, 51, 53, 58, 200, 145, 156, 9, 192, 180, 242, 24,
     76, 94, 150, 254, 162, 5, 216, 182, 74, 163, 142, 126, 169, 102, 123]

/-- OpenSSL on this voucher, for a pledge that trusts the signer. -/
def pledgeEnv : PledgeEnv :=
  { clientEnv with
    isPkcs7 := fun text => text = voucherCms
    pkcs7Verify := fun trusted text => trusted = ascii "masa.pem" ∧ text = voucherCms
    pkcs7Content := fun text => if text = voucherCms then voucherContent else []
    certsPkcs7 := fun _ => none }

def pledge : Pledge where
  client := { Client.Reference.hostCtx with trustedCerts := ascii "masa.pem" }
  brskiMode := true
  clientCert := none
  clientCertSerNum := some (ascii "JADA123")
  brskiRetrievedVoucher := none
  brskiRetrievedCacert := none

def sentNonce : Bytes := ascii "30313233343536373839616263646566"

theorem pledgeEnv_sound : SoundResponses pledgeEnv where
  some_certs text certs h := by
    change (if text = caCerts then _ else _) = _ at h
    split at h
    · rename_i htext
      cases h
      rw [htext]
      exact List.cons_ne_nil _ _
    · cases h
  errors text rv h := by
    change (if text = caCerts then _ else _) = _ at h
    split at h
    · cases h
    · cases h
      decide

theorem voucher_taken :
    (brskiParseVoucher pledgeEnv (received pledge voucherCms) sentNonce).map
      (fun result => (result.1.brskiRetrievedCacert, result.2)) =
        some (some caCerts, ⟨.none, some 0⟩) := by
  decide +kernel

end Instances

end LibEst.Client.VoucherAcceptance
