import LibEst.SafeStr
import LibEst.Client.Context
import LibEst.Client.Multipart

/-! The answer of a server as the client reads it: the raw bytes, the status, the
headers, and the payload or payloads of a successful answer. -/
namespace LibEst.Client.Http

open LibEst.Basic LibEst.Base64 LibEst.Lib.ByteString LibEst.Lib.Loop LibEst.SafeStr
open LibEst.Server.AuthHeader LibEst.Client.Context LibEst.Client.Multipart

def estCaMax : Nat := 2000000
def maxHeaders : Nat := 16
def maxMultiBoundaryLen : Nat := 70
def estMinClientPkeyLen : Nat := 256
def estMinClientCertLen : Nat := 128

section Reading

/-- One call of `est_ssl_read`: null for an error or a timeout, no bytes where
the server has closed the connection. -/
abbrev SslRead := Option Bytes

/-- Whether `SSL_peek` reports anything but the end of the connection. -/
def sslPeek : List SslRead → Bool
  | [] => false
  | some [] :: _ => false
  | _ => true

/-- Reads until the connection is closed or the buffer is full. A read that is not
given stands for a closed connection. -/
def estIoReadRaw (raw : Bytes) : List SslRead → Except EstError Bytes
  | [] => .ok raw
  | none :: _ => .error .sslRead
  | some [] :: _ => .ok raw
  | some (c :: chunk) :: rest =>
      let room := estCaMax - raw.length
      if (c :: chunk).length < room then estIoReadRaw (raw ++ c :: chunk) rest
      else if room < (c :: chunk).length ∨ sslPeek rest then .error .readBufferTooSmall
      else .ok (raw ++ c :: chunk)

end Reading

section Status

/-- The statuses that are told apart, in the order in which they are looked for. -/
def statusCodes : List (Bytes × Int) :=
  [(ascii "HTTP/1.1 200", 200), (ascii "HTTP/1.1 202", 202), (ascii "HTTP/1.1 204", 204),
    (ascii "HTTP/1.1 400", 400), (ascii "HTTP/1.1 401", 401), (ascii "HTTP/1.1 404", 404),
    (ascii "HTTP/1.1 423", 423), (ascii "HTTP/1.1 500", 500), (ascii "HTTP/1.1 502", 502),
    (ascii "HTTP/1.1 504", 504)]

def estIoParseResponseStatusCode (raw : Bytes) : Int :=
  ((statusCodes.find? fun code => code.1.isPrefixOf raw).map Prod.snd).getD (-1)

end Status

section Headers

structure HttpHeader where
  name : Bytes
  value : Bytes
  deriving DecidableEq, Repr

def lineEnd : Bytes := [13, 10]
def headerDelimiter : Bytes := [13, 10, 13, 10]

def skip (delimiters : Bytes) (text : Bytes) : Bytes × Bytes :=
  skipQuoted delimiters delimiters 0 text

/-- A name up to a colon, and the value up to the end of the line. -/
def parseHeader (text : Bytes) : HttpHeader × Bytes :=
  let (name, rest) := skipQuoted (ascii ":") (ascii " ") 0 text
  let (value, rest) := skip lineEnd rest
  (⟨name, value⟩, rest)

/-- The pointer to the rest is behind the header delimiter; it always is where
there is no delimiter. -/
def behindHeaders (delimiter : Option Bytes) (rest : Bytes) : Bool :=
  match delimiter with
  | none => true
  | some fromDelimiter => rest.length < fromDelimiter.length

def parseHeaderLoop (delimiter : Option Bytes) : Nat → Bytes → List HttpHeader × Bytes
  | 0, text => ([], text)
  | n + 1, text =>
      let (hdr, rest) := parseHeader text
      if hdr.name = [] then ([], rest)
      else if behindHeaders delimiter rest then ([hdr], rest)
      else
        let (hdrs, last) := parseHeaderLoop delimiter n rest
        (hdr :: hdrs, last)

def parseHttpHeaders (text : Bytes) : List HttpHeader × Bytes :=
  parseHeaderLoop (strstr headerDelimiter text) maxHeaders (skip lineEnd text).2

end Headers

section Boundary

def validBoundaryByte (c : UInt8) : Bool :=
  (43 ≤ c ∧ c ≤ 58) ∨ (65 ≤ c ∧ c ≤ 90) ∨ (97 ≤ c ∧ c ≤ 122) ∨ (39 ≤ c ∧ c ≤ 41) ∨
    c = 95 ∨ c = 61 ∨ c = 63 ∨ c = 32

/-- Cut at a semicolon, spaces at the end removed, a pair of quotes removed. -/
def sanitizeBoundary (boundary : Bytes) : Bytes :=
  let cut := boundary.takeWhile (· ≠ 59)
  let trimmed := (cut.reverse.dropWhile (· = 32)).reverse
  let unquoted :=
    if trimmed.head? = some 34 ∧ trimmed.getLast? = some 34 then trimmed.tail.dropLast
    else trimmed
  if unquoted.getLast? = some 59 then unquoted.dropLast else unquoted

def multipartPrefix : Bytes := ascii "multipart"
def multipartMixed : Bytes := ascii "multipart/mixed"
def boundaryDef : Bytes := ascii "boundary="

/-- What the value of one header says about the boundary: nothing, a boundary, or
that the answer is malformed. The second component is the value as it is left
behind. -/
inductive BoundaryScan where
  | silent
  | found (boundary value : Bytes)
  | malformed
  deriving DecidableEq

def scanBoundary (value : Bytes) : BoundaryScan :=
  if strstr multipartPrefix value = none then .silent
  else if strstr multipartMixed value = none then .malformed
  else
    match strstr boundaryDef value with
    | none => .malformed
    | some fromDef =>
        let boundary := sanitizeBoundary ((fromDef.drop boundaryDef.length).take
          (maxMultiBoundaryLen + 2))
        if boundary = [] ∨ maxMultiBoundaryLen < boundary.length ∨ ¬ boundary.all validBoundaryByte then
          .malformed
        else
          .found boundary
            (value.take (value.length - fromDef.length + boundaryDef.length) ++ boundary)

/-- The headers of a key generation answer, the boundary that the last multipart
header names, and the payload; null where a multipart header is malformed. -/
def parseKeygenLoop (delimiter : Option Bytes) (boundary : Option Bytes) :
    Nat → Bytes → Option (List HttpHeader × Option Bytes × Bytes)
  | 0, text => some ([], boundary, text)
  | n + 1, text =>
      let (hdr, rest) := parseHeader (text.dropWhile (· = 10))
      let next (hdr : HttpHeader) (boundary : Option Bytes) :=
        if hdr.name = [] then some ([], boundary, rest)
        else if behindHeaders delimiter rest then some ([hdr], boundary, rest)
        else (parseKeygenLoop delimiter boundary n rest).map fun (hdrs, found, last) =>
          (hdr :: hdrs, found, last)
      match scanBoundary hdr.value with
      | .silent => next hdr boundary
      | .found boundary value => next { hdr with value := value } (some boundary)
      | .malformed => none

def parseAndSplitKeygenRsp (text : Bytes) : Option (List HttpHeader × Option Bytes × Bytes) :=
  parseKeygenLoop (strstr headerDelimiter text) none maxHeaders (skip lineEnd text).2

end Boundary

section Challenge

/-- `est_strcasecmp_s(s, literal) == 0`; an empty text compares equal to all. -/
def strcaseEq (text : Bytes) (literal : String) : Bool :=
  text = [] ∨ text.map tolower = (ascii literal).map tolower

def isFieldSeparator (c : UInt8) : Bool := isspace c ∨ c = 44 ∨ c = 59 ∨ c = 61

/-- The text up to a closing character, and what is behind it. A backslash is
kept, and so is the character after it, whatever it is. -/
def quotedField (close : UInt8) : Bytes → Bytes × Bytes
  | [] => ([], [])
  | [c] => if c = close then ([], []) else ([c], [])
  | c :: d :: rest =>
      if c = close then ([], d :: rest)
      else if c = 92 then
        let (field, last) := quotedField close rest
        (c :: d :: field, last)
      else
        let (field, last) := quotedField close (d :: rest)
        (c :: field, last)

theorem quotedField_length_le (close : UInt8) (text : Bytes) :
    (quotedField close text).2.length ≤ text.length := by
  fun_induction quotedField close text <;> simp_all <;> omega

/-- One turn at the front of a header value. The next token is quoted, in angle
brackets, or goes up to a separator; a comment in brackets is passed over, and one
that is not closed ends the text. -/
def fieldTurn (text : Bytes) : Turn Bytes (Option (Bytes × Bytes)) :=
  match text.dropWhile isFieldSeparator with
  | [] => .stop none
  | c :: rest =>
      if c = 34 then .stop (some (quotedField 34 rest))
      else if c = 60 then .stop (some (quotedField 62 rest))
      else if c = 40 then .more (quotedField 41 rest).2
      else
        let (field, last) := rest.span fun c => ¬ isFieldSeparator c
        .stop (some (c :: field, last.drop 1))

theorem fieldTurn_shrinks : Shrinks fieldTurn List.length := by
  intro text next h
  have hdrop := (List.dropWhile_suffix (l := text) isFieldSeparator).length_le
  unfold fieldTurn at h
  split at h
  · cases h
  · rename_i c rest hfront
    rw [hfront, List.length_cons] at hdrop
    split at h
    · cases h
    · split at h
      · cases h
      · split at h
        · cases h
          have hquoted := quotedField_length_le 41 rest
          omega
        · cases h

def htNextField (text : Bytes) : Option (Bytes × Bytes) :=
  loopTotal fieldTurn List.length fieldTurn_shrinks text

example : htNextField (ascii " (old) \"a b\", c") = some (ascii "a b", ascii ", c") := by decide

theorem fieldTurn_stop_length {text field rest : Bytes}
    (h : fieldTurn text = .stop (some (field, rest))) : rest.length < text.length := by
  have hdrop := (List.dropWhile_suffix (l := text) isFieldSeparator).length_le
  unfold fieldTurn at h
  split at h
  · cases h
  · rename_i c tail hfront
    rw [hfront, List.length_cons] at hdrop
    have hspan := (List.dropWhile_suffix (l := tail) fun c => ¬ isFieldSeparator c).length_le
    have hquoted := quotedField_length_le 34 tail
    have hbracket := quotedField_length_le 62 tail
    split at h
    · rw [Turn.stop.injEq, Option.some.injEq] at h
      rw [h] at hquoted
      exact Nat.lt_of_le_of_lt hquoted (by omega)
    · split at h
      · rw [Turn.stop.injEq, Option.some.injEq] at h
        rw [h] at hbracket
        exact Nat.lt_of_le_of_lt hbracket (by omega)
      · split at h
        · cases h
        · rw [List.span_eq_takeWhile_dropWhile] at h
          cases h
          rw [List.length_drop]
          omega

/-- A token takes something away from the front. -/
theorem htNextField_length_lt {text field rest : Bytes}
    (h : htNextField text = some (field, rest)) : rest.length < text.length := by
  let front (s : Bytes) : Prop := s.length ≤ text.length
  let shorter (result : Option (Bytes × Bytes)) : Prop :=
    ∀ field rest, result = some (field, rest) → rest.length < text.length
  have hmore (s next : Bytes) (hs : front s) (hnext : fieldTurn s = .more next) : front next :=
    (Nat.lt_of_lt_of_le (fieldTurn_shrinks s next hnext) hs).le
  have hstop (s : Bytes) (result : Option (Bytes × Bytes)) (hs : front s)
      (hresult : fieldTurn s = .stop result) : shorter result := by
    intro field rest hsome
    rw [hsome] at hresult
    exact Nat.lt_of_lt_of_le (fieldTurn_stop_length hresult) hs
  exact loopTotal_rule fieldTurn_shrinks hmore hstop (le_refl text.length) field rest h

/-- The context and the rest of a challenge. -/
abbrev TokenState := ClientCtx × Bytes

/-- Whether the tokens are valid, and the context then. -/
abbrev TokenResult := Bool × ClientCtx

/-- An invalid token wipes the nonce. -/
def invalidToken (ctx : ClientCtx) : Turn TokenState TokenResult :=
  .stop (false, { ctx with sNonce := [] })

/-- A token that must have a value. -/
def withValue (ctx : ClientCtx) (rest : Bytes) (store : Bytes → ClientCtx) :
    Turn TokenState TokenResult :=
  match htNextField rest with
  | none => invalidToken ctx
  | some (value, last) => .more (store value, last)

/-- One token. The buffers for the realm and the nonce have one byte more than is
ever copied, so a longer value is cut. Values that are only logged are passed
over. -/
def tokenTurn (s : TokenState) : Turn TokenState TokenResult :=
  let (ctx, text) := s
  match htNextField text with
  | none => .stop (true, ctx)
  | some (token, rest) =>
      if strcaseEq token "realm" then
        withValue ctx rest fun value => { ctx with realm := value.take maxRealm }
      else if strcaseEq token "nonce" then
        withValue ctx rest fun value => { ctx with sNonce := value.take maxNonce }
      else if strcaseEq token "qop" then withValue ctx rest fun _ => ctx
      else if strcaseEq token "algorithm" then
        match htNextField rest with
        | none => .more (ctx, [])
        | some (value, last) => if strcaseEq value "md5" then .more (ctx, last) else invalidToken ctx
      else if strcaseEq token "error" then withValue ctx rest fun _ => ctx
      else if strcaseEq token "error_description" then withValue ctx rest fun _ => ctx
      else .more (ctx, rest)

theorem withValue_length {ctx : ClientCtx} {rest : Bytes} {store : Bytes → ClientCtx}
    {next : TokenState} (h : withValue ctx rest store = .more next) :
    next.2.length < rest.length := by
  unfold withValue at h
  split at h
  · cases h
  · rename_i hfield
    cases h
    exact htNextField_length_lt hfield

theorem tokenTurn_shrinks : Shrinks tokenTurn fun s => s.2.length := by
  intro s next h
  unfold tokenTurn at h
  dsimp only at h
  split at h
  · cases h
  · rename_i token rest hfield
    have hrest := htNextField_length_lt hfield
    repeat' split at h
    all_goals first
      | exact Nat.lt_trans (withValue_length h) hrest
      | cases h
    · exact Nat.lt_of_le_of_lt (Nat.zero_le _) hrest
    · rename_i hvalue _
      exact Nat.lt_trans (htNextField_length_lt hvalue) hrest
    · exact hrest

/-- The tokens behind the name of the scheme. -/
def estIoParseAuthTokens (ctx : ClientCtx) (value : Bytes) : TokenResult :=
  match htNextField value with
  | none => (true, ctx)
  | some (_, rest) => loopTotal tokenTurn (fun s => s.2.length) tokenTurn_shrinks (ctx, rest)

/-- The scheme that the value of a challenge begins with. -/
def challengeMode (value : Bytes) : Option AuthMode :=
  if (ascii "Basic").isPrefixOf value then some .basic
  else if (ascii "Digest").isPrefixOf value then some .digest
  else if (ascii "Bearer").isPrefixOf value then some .token
  else none

/-- The first challenge among the headers decides. -/
def estIoParseHttpAuthRequest (ctx : ClientCtx) (hdrs : List HttpHeader) : ClientCtx :=
  match hdrs.find? fun hdr => (ascii "WWW-Authenticate").isPrefixOf hdr.name with
  | none => { ctx with authMode := .fail }
  | some hdr =>
      match challengeMode hdr.value with
      | none => { ctx with authMode := .fail }
      | some mode =>
          let (valid, parsed) := estIoParseAuthTokens ctx hdr.value
          { parsed with authMode := if valid then mode else .fail }

end Challenge

section Content

/-- The delay of one Retry-After value, null where it is not a number of seconds
that an integer holds. -/
def retryDelay (value : Bytes) : Option Nat :=
  if value ≠ [] ∧ value.all isdigit ∧ digitsValue value ≤ 2 ^ 31 - 1 then some (digitsValue value)
  else none

/-- The last valid Retry-After header counts. -/
def estIoParseHttpRetryAfterResp (ctx : ClientCtx) (hdrs : List HttpHeader) :
    EstError × ClientCtx :=
  let delays := (hdrs.filter fun hdr =>
    hdr.name.map tolower = (ascii "Retry-After").map tolower).filterMap fun hdr =>
      retryDelay hdr.value
  match delays.getLast? with
  | none => (.invalidRetryValue, { ctx with retryAfterDelay := 0 })
  | some delay => (.caEnrollRetry, { ctx with retryAfterDelay := delay })

/-- The content type of each operation in `est_op_map`. -/
def contentType : EstOperation → Bytes
  | .simpleEnroll => ascii "application/pkcs7-mime; smime-type=certs-only"
  | .simpleReenroll => ascii "application/pkcs7-mime; smime-type=certs-only"
  | .cacerts => ascii "application/pkcs7-mime"
  | .csrattrs => ascii "application/csrattrs"
  | .serverKeygen => ascii "application/pkcs8"
  | .brskiReqVoucher => ascii "application/voucher+cms"
  | .brskiVoucherStatus => ascii "application/json"
  | .brskiEnrollStatus => ascii "application/json"

/-- The content length, null where a header is missing or names another type. -/
def estIoCheckHttpHdrs (hdrs : List HttpHeader) (op : EstOperation) : Option Int :=
  let types := hdrs.filter fun hdr => hdr.name = ascii "Content-Type"
  let lengths := hdrs.filter fun hdr => hdr.name = ascii "Content-Length"
  if types = [] ∨ ¬ types.all fun hdr => (contentType op).isPrefixOf hdr.value then none
  else lengths.getLast?.map fun hdr => atoi hdr.value

/-- The payload of a successful answer; the inner null is an empty one. -/
def checkedPayload (hdrs : List HttpHeader) (op : EstOperation) (payload : Bytes) :
    Except EstError (Option Bytes) :=
  match estIoCheckHttpHdrs hdrs op with
  | none => .error .httpUnsupported
  | some length =>
      if (estCaMax : Int) < length ∨ length ≠ payload.length then .error .httpUnsupported
      else .ok (if payload = [] then none else some payload)

end Content

section Response

/-- The two buffers that a successful answer fills, null where it fills none. -/
structure Buffers where
  key : Option Bytes
  cert : Option Bytes
  deriving DecidableEq, Repr

/-- The key and the certificate from the text at `payload`. -/
def parseRemainingMultipartPayload (memory : Bytes) (boundary : Bytes) :
    Except EstError (Bytes × Bytes) :=
  let length := (cString memory).length
  let (parsed, parser) := multipartParserExecute (multipartParserInit boundary) memory length
  if bothPopulated parser then .ok (parser.keyData, parser.certData)
  else .error (if parsed < length then .multipartParse else .zeroLengthBuf)

/-- The memory from two bytes before the first boundary, null where there is no
boundary. Bytes before the payload are the line end that has become zeros. -/
def fromFirstBoundary (boundary payload behind : Bytes) : Option Bytes :=
  (strstr boundary payload).map fun fromBoundary =>
    let offset := payload.length - fromBoundary.length
    if offset < 2 then [] else (payload ++ behind).drop (offset - 2)

/-- The outer null is undefined: the payload of a successful answer does not have
the boundary in it. -/
def keygenBuffers (boundary : Option Bytes) (payload behind : Bytes) :
    Option (Except EstError Buffers) :=
  match boundary with
  | none => some (.ok ⟨none, none⟩)
  | some boundary =>
      (fromFirstBoundary boundary payload behind).map fun memory =>
        match parseRemainingMultipartPayload memory boundary with
        | .error rv => .error rv
        | .ok (key, cert) =>
            if key.length < estMinClientPkeyLen ∨ cert.length < estMinClientCertLen then
              .error .zeroLengthBuf
            else .ok ⟨some key, some cert⟩

def hasAuthenticated (mode : AuthMode) : Bool := mode = .digest ∨ mode = .basic ∨ mode = .token

/-- What a status other than success leads to. -/
def statusError (ctx : ClientCtx) (status : Int) (hdrs : List HttpHeader) : EstError × ClientCtx :=
  if status = 204 then (.httpNoContent, ctx)
  else if status = 404 then (.httpNotFound, ctx)
  else if status = 202 then estIoParseHttpRetryAfterResp ctx hdrs
  else if status = 400 then (.httpBadReq, ctx)
  else if status = 401 then
    (.authFail,
      if hasAuthenticated ctx.authMode then { ctx with authMode := .fail }
      else estIoParseHttpAuthRequest ctx hdrs)
  else if status = 423 then (.httpLocked, ctx)
  else if status = 500 ∨ status = 502 ∨ status = 504 ∨ status = -1 then (.unknown, ctx)
  else (.httpUnsupported, ctx)

/-- Operations whose answers have no content to check. -/
def noContent (op : EstOperation) : Bool := op = .brskiVoucherStatus ∨ op = .brskiEnrollStatus

/-- The answer in the buffer `raw`. -/
def parseResponse (ctx : ClientCtx) (op : EstOperation) (raw : Bytes) :
    Option (ClientCtx × Except EstError Buffers) :=
  let status := estIoParseResponseStatusCode raw
  let ctx := { ctx with lastHttpStatus := status }
  let text := cString raw
  let behind := raw.drop text.length
  if op = .serverKeygen then
    match parseAndSplitKeygenRsp text with
    | none => some (ctx, .error .multipartParse)
    | some (hdrs, boundary, payload) =>
        if status = 200 then (keygenBuffers boundary payload behind).map fun result => (ctx, result)
        else
          let (rv, ctx) := statusError ctx status hdrs
          some (ctx, .error rv)
  else
    let (hdrs, payload) := parseHttpHeaders text
    if status = 200 then
      if noContent op then some (ctx, .ok ⟨none, none⟩)
      else some (ctx, (checkedPayload hdrs op (payload ++ behind)).map fun cert => ⟨none, cert⟩)
    else
      let (rv, ctx) := statusError ctx status hdrs
      some (ctx, .error rv)

def estIoGetResponseInternal (ctx : ClientCtx) (op : EstOperation) (reads : List SslRead) :
    Option (ClientCtx × Except EstError Buffers) :=
  match estIoReadRaw [] reads with
  | .error rv => some (ctx, .error rv)
  | .ok [] => some (ctx, .error .httpNotFound)
  | .ok (c :: raw) => parseResponse ctx op (c :: raw)

end Response

end LibEst.Client.Http
