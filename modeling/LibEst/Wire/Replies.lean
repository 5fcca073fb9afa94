import Mathlib.Data.List.Find
import LibEst.Server.HttpRequest
import LibEst.Wire.Challenges

/-! The answers of the HTTP server as the client reads them. Each is a text that the
server writes part by part, and a result that the client gets from it. -/
namespace LibEst.Wire.Replies

open LibEst.Basic LibEst.Base64 LibEst.Lib.ByteString LibEst.SafeStr
open LibEst.Server.AuthHeader LibEst.Server.HttpRequest
open LibEst.Client.Context LibEst.Client.Http
open LibEst.Client.HeaderLines LibEst.Client.ResponseText
open LibEst.Client.KeygenRoundTrip (TransferText HasSymbol scanBoundary_decimal keygenStream
  getResponse_keygenStream)
open LibEst.Wire.Message LibEst.Wire.Challenges

theorem isName_retryAfter : IsName "Retry-After" := isName_ofList (by decide)
theorem isName_wwwAuthenticate : IsName "WWW-Authenticate" := isName_ofList (by decide)

section Views

/-- What the server has to tell the client. -/
inductive View where
  | content (contentType : String) (text : Bytes)
  | keys (key cert : Bytes)
  | done
  | refused (keepAlive : Bool) (rc : EstError)
  | retry (delay : Nat)
  | challenged (authMode : AuthMode) (realm : Bytes) (now : Nat)
  deriving DecidableEq

def View.parts : View → List Part
  | .content contentType text => contentParts contentType text
  | .keys key cert => keygenParts key cert
  | .done => [.header statusOk]
  | .refused keepAlive rc => errorParts keepAlive rc
  | .retry delay => [.header (retryAfterHdr delay)]
  | .challenged authMode realm now => challengeParts authMode realm now

def partsText (parts : List Part) : Bytes := parts.flatMap Part.text

def View.text (view : View) : Bytes := partsText view.parts

/-- The error of the client for a status, and its context then. Whoever is refused does
not try with the same credentials again. -/
def seenError : Nat → EstError
  | 204 => .httpNoContent
  | 400 => .httpBadReq
  | 401 => .authFail
  | 404 => .httpNotFound
  | 423 => .httpLocked
  | _ => .unknown

def refusedWith (ctx : ClientCtx) (status : Nat) : ClientCtx :=
  { ctx with
    lastHttpStatus := status
    authMode := if status = 401 then .fail else ctx.authMode }

/-- What the client has from the answer. -/
def View.received (ctx : ClientCtx) : View → ClientCtx × Except EstError Buffers
  | .content _ text => ({ ctx with lastHttpStatus := 200 }, .ok ⟨none, some text⟩)
  | .keys key cert => ({ ctx with lastHttpStatus := 200 }, .ok ⟨some key, some cert⟩)
  | .done => ({ ctx with lastHttpStatus := 200 }, .ok ⟨none, none⟩)
  | .refused _ rc => (refusedWith ctx (errorText rc).1, .error (seenError (errorText rc).1))
  | .retry delay =>
      ({ ctx with lastHttpStatus := 202, retryAfterDelay := delay }, .error .caEnrollRetry)
  | .challenged authMode realm now =>
      (if hasAuthenticated ctx.authMode then refusedWith ctx 401
        else challengedBy { ctx with lastHttpStatus := 401 } authMode realm now, .error .authFail)

/-- A text that goes over the wire as it is: it does not begin with a line break. -/
structure Whole (text : Bytes) : Prop where
  ne : text ≠ []
  front : ∀ c ∈ text.head?, c ∉ lineEnd
  size : text.length ≤ 1000000

/-- An answer that the client of an operation can read. -/
def View.Fits (op : EstOperation) : View → Prop
  | .content type text =>
      op ≠ .serverKeygen ∧ noContent op = false ∧ contentType op <+: ascii type ∧
        (∀ c ∈ ascii type, LineByte c) ∧ (ascii type).head? ≠ some 32 ∧ (ascii type).length ≤ 100 ∧
        Whole text
  | .keys key cert =>
      op = .serverKeygen ∧ TransferText 256 8192 key ∧ TransferText 128 4096 cert ∧
        HasSymbol key ∧ HasSymbol cert
  | .done => noContent op = true
  | .refused _ _ => True
  | .retry delay => delay < 2 ^ 31
  | .challenged mode realm now =>
      Challenging mode ∧ Plain realm now ∧ scanBoundary (challengeValue mode realm now) = .silent

end Views

section Content

variable {type : String} {text : Bytes}

def contentFields (type : String) (htype : ∀ c ∈ ascii type, LineByte c) (length : Nat) :
    List Field :=
  [field "Status" (ascii "200 OK") isName_status (ascii_forall (by decide)),
    field "Content-Type" (ascii type) isName_contentType htype,
    field "Content-Transfer-Encoding" (ascii "base64") (isName_ofList (by decide))
      (ascii_forall (by decide)),
    field "Content-Length" (decimal length) isName_contentLength (lineByte_decimal length)]

theorem okReason_line : ∀ c ∈ ascii "OK", LineByte c := ascii_forall (by decide)

theorem contentFields_length (htype : ∀ c ∈ ascii type, LineByte c) (length : Nat) :
    (contentFields type htype length).length ≤ 16 := show 4 ≤ 16 by decide

def contentResponse (type : String) (htype : ∀ c ∈ ascii type, LineByte c) (text : Bytes) :
    Response where
  reason := ascii "OK"
  fields := contentFields type htype text.length
  body := text
  reasonLine := okReason_line
  fieldsLe := contentFields_length htype text.length

theorem content_text (htype : ∀ c ∈ ascii type, LineByte c) (text : Bytes) :
    (View.content type text).text = (contentResponse type htype text).text := by
  have hstatus : statusOk = ascii "HTTP/1.1 200 " ++ ascii "OK" ++ 13 :: 10 ::
      (ascii "Status" ++ 58 :: 32 :: (ascii "200 OK" ++ [13, 10])) := by
    rw [statusOk, ascii_ofList, ascii_ofList, ascii_ofList, ascii_ofList, ascii_ofList]
    rfl
  have htypeName : ascii "Content-Type: " = ascii "Content-Type" ++ [58, 32] := by
    rw [ascii_ofList, ascii_ofList]
    rfl
  have hencoding : ascii "Content-Transfer-Encoding: base64\r\n" =
      ascii "Content-Transfer-Encoding" ++ 58 :: 32 :: (ascii "base64" ++ [13, 10]) := by
    rw [ascii_ofList, ascii_ofList, ascii_ofList]
    rfl
  have hlength : ascii "Content-Length: " = ascii "Content-Length" ++ [58, 32] := by
    rw [ascii_ofList, ascii_ofList]
    rfl
  have heol : eol = [13, 10] := by decide
  simp only [View.text, View.parts, contentParts, partsText, List.flatMap_cons, List.flatMap_nil,
    Part.text, contentHdr, hstatus, htypeName, hencoding, hlength, heol, Response.text,
    Response.statusLine, contentResponse, fieldLines, contentFields, Field.line, field, lineEnd,
    List.append_assoc, List.cons_append, List.nil_append, List.append_nil]

theorem contentResponse_typed {op : EstOperation} (htype : ∀ c ∈ ascii type, LineByte c)
    (hfront : (ascii type).head? ≠ some 32) (hop : contentType op <+: ascii type) :
    (contentResponse type htype text).Typed op := by
  have hheader := field_header isName_contentType htype hfront
  have hvalue : (32 :: ascii type).dropWhile (· = 32) = ascii type :=
    congrArg HttpHeader.value hheader
  refine ⟨⟨field "Content-Type" (ascii type) isName_contentType htype, ?_, rfl⟩, ?_⟩
  · simp [contentResponse, contentFields]
  · intro f hf hname
    simp only [contentResponse, contentFields, List.mem_cons, List.not_mem_nil, or_false] at hf
    rcases hf with rfl | rfl | rfl | rfl
    · exact absurd hname (show ascii "Status" ≠ ascii "Content-Type" by decide)
    · show contentType op <+: (32 :: ascii type).dropWhile (· = 32)
      rw [hvalue]
      exact hop
    · exact absurd hname (show ascii "Content-Transfer-Encoding" ≠ ascii "Content-Type" by decide)
    · exact absurd hname (show ascii "Content-Length" ≠ ascii "Content-Type" by decide)

theorem contentResponse_measures (htype : ∀ c ∈ ascii type, LineByte c)
    (hsize : text.length < 2 ^ 31) :
    (contentResponse type htype text).Measures text.length := by
  have hheader := field_header isName_contentLength
    (lineByte_decimal text.length) (decimal_front text.length)
  have hvalue : (32 :: decimal text.length).dropWhile (· = 32) = decimal text.length :=
    congrArg HttpHeader.value hheader
  refine ⟨field "Content-Length" (decimal text.length) isName_contentLength (lineByte_decimal _), rfl, ?_⟩
  show atoi ((32 :: decimal text.length).dropWhile (· = 32)) = text.length
  rw [hvalue, atoi_decimal hsize]

theorem contentHdr_length (htype : (ascii type).length ≤ 100) (hsize : text.length ≤ 1000000) :
    (contentHdr type text).length ≤ 1000 := by
  have hstatus : statusOk.length ≤ 100 := ascii_length_le (by decide)
  have hname : (ascii "Content-Type: ").length ≤ 100 := ascii_length_le (by decide)
  have hencoding : (ascii "Content-Transfer-Encoding: base64\r\n").length ≤ 100 :=
    ascii_length_le (by decide)
  have hlength : (ascii "Content-Length: ").length ≤ 100 := ascii_length_le (by decide)
  have heol : eol.length ≤ 100 := by decide
  have hdecimal : (decimal text.length).length ≤ 7 :=
    numeral_length_le (by decide) (by decide) (Nat.lt_of_le_of_lt hsize (by decide))
  simp only [contentHdr, List.length_append]
  omega

theorem content_received {op : EstOperation} (ctx : ClientCtx)
    (h : (View.content type text).Fits op) :
    parseResponse ctx op (View.content type text).text =
      some ((View.content type text).received ctx) ∧ (View.content type text).text.length ≤ estCaMax := by
  obtain ⟨hkeygen, hcontent, hop, htype, hfront, hshort, hwhole⟩ := h
  have hlong := hwhole.size
  have hhdr := contentHdr_length hshort hlong
  have hsize : (View.content type text).text.length ≤ estCaMax := by
    simp only [View.text, View.parts, contentParts, partsText, List.flatMap_cons, List.flatMap_nil,
      Part.text, List.length_append, List.length_nil, estCaMax]
    omega
  have hunbroken : unbroken text = text := (unbroken_eq_iff text).mpr hwhole.front
  have hmeasures := contentResponse_measures htype (Nat.lt_of_le_of_lt hlong (by decide))
  rw [content_text htype] at hsize ⊢
  refine ⟨?_, hsize⟩
  rcases (contentResponse type htype text).parsed ctx hkeygen hcontent hsize with
    ⟨-, cert, hresult, hcert⟩ | ⟨hrefused, -⟩
  · have hsome : cert = some text := by
      rw [show (contentResponse type htype text).body = text from rfl, hunbroken] at hcert
      cases cert with
      | none => exact absurd hcert.symm hwhole.ne
      | some cert => exact congrArg some hcert
    rw [hresult, hsome]
    rfl
  · refine absurd ⟨contentResponse_typed htype hfront hop, ?_⟩ hrefused
    rw [show (contentResponse type htype text).body = text from rfl, hunbroken]
    exact hmeasures

end Content

section Statuses

variable {line front body : Bytes} {fields : List Field}

theorem prefix_append_iff {code : Bytes} (h : code.length ≤ front.length) (rest : Bytes) :
    code <+: front ++ rest ↔ code <+: front :=
  ⟨fun hcode => List.prefix_of_prefix_length_le hcode (List.prefix_append front rest) h,
    List.prefix_append_of_prefix⟩

theorem statusCodes_length : ∀ code ∈ statusCodes, code.1.length = 12 := by
  unfold statusCodes
  rw [ascii_ofList, ascii_ofList, ascii_ofList, ascii_ofList, ascii_ofList, ascii_ofList, ascii_ofList, ascii_ofList, ascii_ofList, ascii_ofList]
  decide

theorem statusCodes_read : ∀ code ∈ statusCodes, estIoParseResponseStatusCode code.1 = code.2 := by
  unfold estIoParseResponseStatusCode statusCodes
  rw [ascii_ofList, ascii_ofList, ascii_ofList, ascii_ofList, ascii_ofList, ascii_ofList, ascii_ofList, ascii_ofList, ascii_ofList, ascii_ofList]
  decide

/-- The status stands in the first twelve characters. -/
theorem status_append (h : 12 ≤ front.length) (rest : Bytes) :
    estIoParseResponseStatusCode (front ++ rest) = estIoParseResponseStatusCode front := by
  have hlength := statusCodes_length
  unfold estIoParseResponseStatusCode
  rw [List.find?_congr]
  intro code hcode
  rw [Bool.eq_iff_iff, List.isPrefixOf_iff_prefix, List.isPrefixOf_iff_prefix,
    prefix_append_iff (by rw [hlength code hcode]; exact h)]

theorem status_line {code : Bytes} {status : Int} (h : (code, status) ∈ statusCodes) (rest : Bytes) :
    estIoParseResponseStatusCode (code ++ rest) = status := by
  have hlength : code.length = 12 := statusCodes_length _ h
  rw [status_append (Nat.le_of_eq hlength.symm)]
  exact statusCodes_read _ h

/-- An answer without parts and with another status than success is an error. -/
theorem parseResponse_error (ctx : ClientCtx) (op : EstOperation) (hline : ∀ c ∈ line, LineByte c)
    (hlong : 12 ≤ line.length) {status : Int} (hstatus : estIoParseResponseStatusCode line = status)
    (hne : status ≠ 200) (hfields : fields ≠ []) (hle : fields.length ≤ maxHeaders)
    (hsilent : ∀ f ∈ fields, Silent f) :
    parseResponse ctx op (message line fields body) =
      some ((statusError { ctx with lastHttpStatus := status } status
          (fields.map Field.header)).2,
        .error (statusError { ctx with lastHttpStatus := status } status
          (fields.map Field.header)).1) := by
  have hread : estIoParseResponseStatusCode (message line fields body) = status := by
    rw [message, status_append hlong, hstatus]
  rw [parseResponse, hread, cString_message hline]
  dsimp only
  by_cases hop : op = .serverKeygen
  · rw [if_pos hop, parseAndSplit_message hline hfields hle hsilent]
    dsimp only
    rw [if_neg hne]
  · rw [if_neg hop, parseHttpHeaders_message hline hfields hle]
    dsimp only
    rw [if_neg hne]

end Statuses

section Errors

/-- The first lines of the answers to errors. -/
def errorLines : List (Nat × String) :=
  [(204, "No Content"), (400, "Bad Request"), (401, "Unauthorized"), (404, "Not Found"),
    (423, "Locked"), (502, "Bad Gateway"), (504, "Gateway Time-out"),
    (500, "Internal Server Error")]

theorem errorText_line (rc : EstError) : ((errorText rc).1, (errorText rc).2.1) ∈ errorLines := by
  cases rc <;> decide

theorem errorText_length (rc : EstError) : (ascii (errorText rc).2.2).length ≤ 100 := by
  unfold errorText
  split
  case h_7 =>
    rw [ascii_append, List.length_append]
    exact Nat.add_le_add (ascii_length_le (n := 60) (by decide)) (ascii_length_le (n := 40) (by decide))
  all_goals exact ascii_length_le (by decide)

def errorLine (status : Nat) (reason : String) : Bytes :=
  ascii "HTTP/1.1 " ++ decimal status ++ ascii " " ++ ascii reason

def errorFields (length : Nat) (connection : Bytes) (h : ∀ c ∈ connection, LineByte c) :
    List Field :=
  [field "Content-Length" (decimal length) isName_contentLength (lineByte_decimal length),
    field "Connection" connection isName_connection h]

theorem errorLines_reason {status : Nat} {reason : String} (h : (status, reason) ∈ errorLines) :
    (ascii reason).length ≤ 30 ∧ ∀ c ∈ ascii reason, LineByte c := by
  simp only [errorLines, List.mem_cons, Prod.mk.injEq, List.not_mem_nil, or_false] at h
  rcases h with ⟨-, rfl⟩ | ⟨-, rfl⟩ | ⟨-, rfl⟩ | ⟨-, rfl⟩ | ⟨-, rfl⟩ | ⟨-, rfl⟩ | ⟨-, rfl⟩ |
    ⟨-, rfl⟩
  all_goals exact ⟨ascii_length_le (by decide), ascii_forall (by decide)⟩

theorem errorLine_bytes {status : Nat} {reason : String} (h : (status, reason) ∈ errorLines) :
    ∀ c ∈ errorLine status reason, LineByte c := by
  have hreason := (errorLines_reason h).2
  have hfront : ∀ c ∈ ascii "HTTP/1.1 ", LineByte c := ascii_forall (by decide)
  have hspace : ∀ c ∈ ascii " ", LineByte c := ascii_forall (by decide)
  exact lineByte_append (lineByte_append (lineByte_append hfront (lineByte_decimal status)) hspace)
    hreason

theorem errorLines_code {status : Nat} {reason : String} (h : (status, reason) ∈ errorLines) :
    (ascii "HTTP/1.1 " ++ decimal status, (status : Int)) ∈ statusCodes ∧ (status : Int) ≠ 200 := by
  have hcodes : ∀ line ∈ errorLines, (ascii "HTTP/1.1 " ++ decimal line.1, (line.1 : Int)) ∈ statusCodes ∧
      (line.1 : Int) ≠ 200 := by
    unfold statusCodes
    rw [ascii_ofList, ascii_ofList, ascii_ofList, ascii_ofList, ascii_ofList, ascii_ofList, ascii_ofList, ascii_ofList, ascii_ofList, ascii_ofList, ascii_ofList]
    decide
  exact hcodes _ h

theorem errorLine_length {status : Nat} {reason : String} (h : (status, reason) ∈ errorLines) :
    12 ≤ (errorLine status reason).length ∧ (errorLine status reason).length ≤ 100 := by
  have hcode := statusCodes_length _ (errorLines_code h).1
  have hreason := (errorLines_reason h).1
  have hspace : (ascii " ").length ≤ 1 := ascii_length_le (by decide)
  rw [errorLine, List.length_append, List.length_append]
  dsimp only at hcode
  omega

theorem errorLine_status {status : Nat} {reason : String} (h : (status, reason) ∈ errorLines) :
    estIoParseResponseStatusCode (errorLine status reason) = status ∧ (status : Int) ≠ 200 ∧
      12 ≤ (errorLine status reason).length := by
  obtain ⟨hcode, hne⟩ := errorLines_code h
  refine ⟨?_, hne, (errorLine_length h).1⟩
  rw [errorLine, List.append_assoc]
  exact status_line hcode _

/-- The fields of these answers tell the client nothing. -/
theorem errorFields_hdrs (length : Nat) {connection : Bytes} (h : ∀ c ∈ connection, LineByte c)
    (hconnection : connection = ascii "keep-alive" ∨ connection = ascii "close") :
    (∀ f ∈ errorFields length connection h, Silent f) ∧
      ((errorFields length connection h).map Field.header).find?
        (fun hdr => (ascii "WWW-Authenticate").isPrefixOf hdr.name) = none := by
  have hlength := field_header isName_contentLength (lineByte_decimal length)
    (decimal_front length)
  refine ⟨?_, rfl⟩
  intro f hf
  simp only [errorFields, List.mem_cons, List.not_mem_nil, or_false] at hf
  rcases hf with rfl | rfl
  · rw [Silent, hlength]
    exact scanBoundary_decimal length
  · rcases hconnection with rfl | rfl
    · exact show scanBoundary ((32 :: ascii "keep-alive").dropWhile (· = 32)) = .silent by decide
    · exact show scanBoundary ((32 :: ascii "close").dropWhile (· = 32)) = .silent by decide

/-- What each status leads to where no challenge comes with it. -/
theorem statusError_refused (ctx : ClientCtx) {status : Nat} {reason : String}
    (h : (status, reason) ∈ errorLines) {hdrs : List HttpHeader}
    (hnone : hdrs.find? (fun hdr => (ascii "WWW-Authenticate").isPrefixOf hdr.name) = none) :
    statusError { ctx with lastHttpStatus := status } status hdrs =
      (seenError status, refusedWith ctx status) := by
  have hauth (ctx : ClientCtx) :
      estIoParseHttpAuthRequest ctx hdrs = { ctx with authMode := .fail } := by
    unfold estIoParseHttpAuthRequest
    rw [hnone]
  simp only [errorLines, List.mem_cons, Prod.mk.injEq, List.not_mem_nil, or_false] at h
  rcases h with ⟨rfl, -⟩ | ⟨rfl, -⟩ | ⟨rfl, -⟩ | ⟨rfl, -⟩ | ⟨rfl, -⟩ | ⟨rfl, -⟩ | ⟨rfl, -⟩ |
    ⟨rfl, -⟩
  all_goals simp [statusError, seenError, refusedWith, hauth]

/-- The text behind the fields. -/
def errorBody (status : Nat) (reason text : String) : Bytes :=
  if status ≠ 204 then
    ascii "Error " ++ decimal status ++ ascii ": " ++ ascii reason ++ ascii "\n" ++ ascii text
  else []

def connectionValue (keepAlive : Bool) (status : Nat) : Bytes :=
  ascii (if keepAlive ∧ status < 400 then "keep-alive" else "close")

theorem connectionValue_cases (keepAlive : Bool) (status : Nat) :
    connectionValue keepAlive status = ascii "keep-alive" ∨
      connectionValue keepAlive status = ascii "close" := by
  unfold connectionValue
  split
  · exact Or.inl rfl
  · exact Or.inr rfl

theorem connectionValue_bytes (keepAlive : Bool) (status : Nat) :
    ∀ c ∈ connectionValue keepAlive status, LineByte c := by
  rcases connectionValue_cases keepAlive status with h | h <;> rw [h] <;> decide

theorem partsText_body (header body : Bytes) :
    partsText (if body = [] then [.header header] else [.header header, .body body]) =
      header ++ body := by
  split
  · rename_i h
    rw [h]
    rfl
  · simp only [partsText, List.flatMap_cons, List.flatMap_nil, Part.text, List.append_nil]

theorem refused_text (keepAlive : Bool) (rc : EstError) :
    (View.refused keepAlive rc).text =
      let body := errorBody (errorText rc).1 (errorText rc).2.1 (errorText rc).2.2
      message (errorLine (errorText rc).1 (errorText rc).2.1)
        (errorFields body.length (connectionValue keepAlive (errorText rc).1)
          (connectionValue_bytes keepAlive _)) body := by
  have hlength : ascii "Content-Length: " = ascii "Content-Length" ++ [58, 32] := by
    rw [ascii_ofList, ascii_ofList]
    rfl
  have hconnection : ascii "Connection: " = ascii "Connection" ++ [58, 32] := by
    rw [ascii_ofList, ascii_ofList]
    rfl
  have heol : eol = [13, 10] := by decide
  unfold View.text View.parts errorParts
  dsimp only
  rw [partsText_body]
  simp only [message, errorLine, fieldLines, errorFields, errorBody, connectionValue,
    List.flatMap_cons, List.flatMap_nil, Field.line, field, lineEnd, hlength, hconnection, heol,
    List.append_assoc, List.cons_append, List.nil_append]

theorem errorBody_length (status : Nat) (hstatus : status < 1000) {reason text : String}
    (hreason : (ascii reason).length ≤ 100) (htext : (ascii text).length ≤ 100) :
    (errorBody status reason text).length ≤ 1000 := by
  have hdecimal : (decimal status).length ≤ 3 := numeral_length_le (by decide) (by decide) hstatus
  have hfront : (ascii "Error ").length ≤ 100 := ascii_length_le (by decide)
  have hcolon : (ascii ": ").length ≤ 100 := ascii_length_le (by decide)
  have hend : (ascii "\n").length ≤ 100 := ascii_length_le (by decide)
  unfold errorBody
  split
  · simp only [List.length_append]
    omega
  · exact Nat.zero_le _

theorem refused_length (keepAlive : Bool) (rc : EstError) :
    (View.refused keepAlive rc).text.length ≤ estCaMax := by
  have hmem := errorText_line rc
  have hstatuses : ∀ line ∈ errorLines, line.1 < 1000 := by decide
  have hstatus : (errorText rc).1 < 1000 := hstatuses _ hmem
  have hreason := errorLines_reason hmem
  have hline := errorLine_length hmem
  have hbody := errorBody_length (errorText rc).1 hstatus (hreason.1.trans (by decide))
    (errorText_length rc)
  have hconnection : (connectionValue keepAlive (errorText rc).1).length ≤ 10 := by
    rcases connectionValue_cases keepAlive (errorText rc).1 with h | h <;> rw [h] <;> decide
  have hdecimal : (decimal (errorBody (errorText rc).1 (errorText rc).2.1
      (errorText rc).2.2).length).length ≤ 4 :=
    numeral_length_le (by decide) (by decide) (Nat.lt_of_le_of_lt hbody (by decide))
  have hlength : (ascii "Content-Length").length ≤ 100 := ascii_length_le (by decide)
  have hname : (ascii "Connection").length ≤ 100 := ascii_length_le (by decide)
  rw [refused_text]
  simp only [message_length, errorFields, List.flatMap_cons, List.flatMap_nil, field_length,
    List.length_append, List.length_nil, estCaMax]
  omega

theorem refused_received (ctx : ClientCtx) (op : EstOperation) (keepAlive : Bool) (rc : EstError) :
    parseResponse ctx op (View.refused keepAlive rc).text =
      some ((View.refused keepAlive rc).received ctx) := by
  have hmem := errorText_line rc
  obtain ⟨hstatus, hne, hlong⟩ := errorLine_status hmem
  have hhdrs := errorFields_hdrs
    (errorBody (errorText rc).1 (errorText rc).2.1 (errorText rc).2.2).length
    (connectionValue_bytes keepAlive (errorText rc).1)
    (connectionValue_cases keepAlive (errorText rc).1)
  rw [refused_text]
  dsimp only
  rw [parseResponse_error ctx op (errorLine_bytes hmem) hlong hstatus hne (by simp [errorFields])
    (by simp [errorFields, maxHeaders]) hhdrs.1, statusError_refused ctx hmem hhdrs.2]
  rfl

end Errors

section Retry

def retryFields (delay : Nat) : List Field :=
  [field "Status" (ascii "202 Accepted") isName_status (ascii_forall (by decide)),
    field "Retry-After" (decimal delay) isName_retryAfter (lineByte_decimal delay)]

theorem retry_text (delay : Nat) :
    (View.retry delay).text = message (ascii "HTTP/1.1 202 Accepted") (retryFields delay) [] := by
  have hfront : ascii "HTTP/1.1 202 Accepted\r\nStatus: 202 Accepted\r\nRetry-After: " =
      ascii "HTTP/1.1 202 Accepted" ++ 13 :: 10 :: (ascii "Status" ++ 58 :: 32 ::
        (ascii "202 Accepted" ++ 13 :: 10 :: (ascii "Retry-After" ++ [58, 32]))) := by
    rw [ascii_ofList, ascii_ofList, ascii_ofList, ascii_ofList, ascii_ofList]
    rfl
  have heol : eol = [13, 10] := by decide
  simp only [View.text, View.parts, partsText, List.flatMap_cons, List.flatMap_nil, Part.text,
    retryAfterHdr, message, fieldLines, retryFields, Field.line, field, lineEnd, hfront, heol,
    List.append_assoc, List.cons_append, List.nil_append, List.append_nil]

theorem retryDelay_decimal {delay : Nat} (h : delay < 2 ^ 31) :
    retryDelay (decimal delay) = some delay := by
  have hdigits : (decimal delay).all isdigit = true := List.all_eq_true.mpr (isdigit_decimal delay)
  rw [retryDelay, digitsValue_decimal, if_pos ⟨decimal_ne_nil delay, hdigits, by omega⟩]

theorem estIoParseHttpRetryAfterResp_delay (ctx : ClientCtx) {delay : Nat} (h : delay < 2 ^ 31)
    (status : Bytes) :
    estIoParseHttpRetryAfterResp ctx
        [⟨ascii "Status", status⟩, ⟨ascii "Retry-After", decimal delay⟩] =
      (.caEnrollRetry, { ctx with retryAfterDelay := delay }) := by
  have hfilter : [HttpHeader.mk (ascii "Status") status, ⟨ascii "Retry-After", decimal delay⟩].filter
      (fun hdr => hdr.name.map tolower = (ascii "Retry-After").map tolower) =
      [⟨ascii "Retry-After", decimal delay⟩] := rfl
  have hdelays : [HttpHeader.mk (ascii "Retry-After") (decimal delay)].filterMap
      (fun hdr => retryDelay hdr.value) = [delay] := by
    simp [retryDelay_decimal h]
  unfold estIoParseHttpRetryAfterResp
  rw [hfilter, hdelays]
  rfl

theorem retry_received (ctx : ClientCtx) (op : EstOperation) {delay : Nat} (h : delay < 2 ^ 31) :
    parseResponse ctx op (View.retry delay).text = some ((View.retry delay).received ctx) := by
  have hheader := field_header isName_retryAfter (lineByte_decimal delay)
    (decimal_front delay)
  have hstatus := field_header isName_status
    (show ∀ c ∈ ascii "202 Accepted", LineByte c from ascii_forall (by decide)) (by decide)
  have hsilent : ∀ f ∈ retryFields delay, Silent f := by
    intro f hf
    simp only [retryFields, List.mem_cons, List.not_mem_nil, or_false] at hf
    rcases hf with rfl | rfl
    · rw [Silent, hstatus]
      decide
    · rw [Silent, hheader]
      exact scanBoundary_decimal delay
  have hhdrs : (retryFields delay).map Field.header =
      [⟨ascii "Status", ascii "202 Accepted"⟩, ⟨ascii "Retry-After", decimal delay⟩] := by
    simp only [retryFields, List.map_cons, List.map_nil, hheader, hstatus]
  have hdelay := estIoParseHttpRetryAfterResp_delay { ctx with lastHttpStatus := 202 } h
    (ascii "202 Accepted")
  have hline : ∀ c ∈ ascii "HTTP/1.1 202 Accepted", LineByte c := ascii_forall (by decide)
  have hsplit : ascii "HTTP/1.1 202 Accepted" = ascii "HTTP/1.1 202" ++ ascii " Accepted" := by
    rw [ascii_ofList, ascii_ofList, ascii_ofList]
    rfl
  have hlong : 12 ≤ (ascii "HTTP/1.1 202 Accepted").length := by
    rw [ascii_ofList]
    decide
  have hstatusCode : estIoParseResponseStatusCode (ascii "HTTP/1.1 202 Accepted") = 202 := by
    rw [hsplit]
    exact status_line (by simp [statusCodes]) _
  rw [retry_text, parseResponse_error ctx op hline hlong hstatusCode
    (by decide) (by simp [retryFields]) (by simp [retryFields, maxHeaders]) hsilent, hhdrs,
    statusError, if_neg (by decide), if_neg (by decide), if_pos rfl, hdelay]
  rfl

theorem retry_length {delay : Nat} (h : delay < 2 ^ 31) :
    (View.retry delay).text.length ≤ estCaMax := by
  have hdecimal : (decimal delay).length ≤ 10 :=
    numeral_length_le (by decide) (by decide) (Nat.lt_of_lt_of_le h (by decide))
  have hline : (ascii "HTTP/1.1 202 Accepted").length ≤ 100 := ascii_length_le (by decide)
  have hstatus : (ascii "Status").length ≤ 100 := ascii_length_le (by decide)
  have haccepted : (ascii "202 Accepted").length ≤ 100 := ascii_length_le (by decide)
  have hname : (ascii "Retry-After").length ≤ 100 := ascii_length_le (by decide)
  rw [retry_text]
  simp only [message_length, retryFields, List.flatMap_cons, List.flatMap_nil, field_length,
    List.length_append, List.length_nil, estCaMax]
  omega

end Retry

section Challenged

variable {mode : AuthMode} {realm : Bytes} {now : Nat}

theorem challengeValue_bytes (h : Plain realm now) (mode : AuthMode) :
    ∀ c ∈ challengeValue mode realm now, LineByte c := by
  have hassigned {name : String} {value rest : Bytes} (hname : ∀ c ∈ ascii name, LineByte c)
      (hvalue : ∀ c ∈ value, LineByte c) (hrest : ∀ c ∈ rest, LineByte c) :
      ∀ c ∈ assigned name value rest, LineByte c := by
    apply lineByte_append hname
    exact lineByte_append (show ∀ c ∈ [61, LibEst.Client.DigestRoundTrip.quote], LineByte c by decide)
      (lineByte_append hvalue
        (lineByte_append (show ∀ c ∈ [LibEst.Client.DigestRoundTrip.quote], LineByte c by decide) hrest))
  have hnil : ∀ c ∈ ([] : Bytes), LineByte c := by simp
  have hcomma : ∀ c ∈ ([44, 32] : Bytes), LineByte c := by decide
  have hspace : ∀ c ∈ ([32] : Bytes), LineByte c := by decide
  have hrealm : ∀ c ∈ assigned "realm" realm [], LineByte c := hassigned (by decide) h.line hnil
  unfold challengeValue
  split
  · exact lineByte_append (by decide) (lineByte_append hspace hrealm)
  · refine lineByte_append (by decide) (lineByte_append hspace (hassigned (by decide) (by decide) ?_))
    refine lineByte_append hcomma (hassigned (by decide) h.line (lineByte_append hcomma ?_))
    exact hassigned (by decide) (lineByte_decimal now) hnil
  · exact lineByte_append (by decide) (lineByte_append hspace hrealm)
  · exact hnil

def challengeFields (h : Plain realm now) (mode : AuthMode) : List Field :=
  [field "Content-Length" (ascii "0") isName_contentLength (ascii_forall (by decide)),
    field "WWW-Authenticate" (challengeValue mode realm now) isName_wwwAuthenticate
      (challengeValue_bytes h mode)]

theorem challengeParts_eq (hmode : Challenging mode) :
    challengeParts mode realm now =
      [.header (ascii "HTTP/1.1 401 Unauthorized\r\nContent-Length: 0\r\nWWW-Authenticate: " ++
        challengeValue mode realm now ++ eol ++ eol)] := by
  have hrealm : ascii "realm=\"" = ascii "realm" ++ [61, 34] := by
    rw [ascii_ofList, ascii_ofList]
    rfl
  have hquote : ascii "\"" = [34] := ascii_ofList _
  have hbasic : ascii "Basic " = ascii "Basic" ++ [32] := by
    rw [ascii_ofList, ascii_ofList]
    rfl
  have hbearer : ascii "Bearer " = ascii "Bearer" ++ [32] := by
    rw [ascii_ofList, ascii_ofList]
    rfl
  have hdigest : ascii "Digest qop=\"auth\", " = ascii "Digest" ++ 32 ::
      (ascii "qop" ++ 61 :: 34 :: (ascii "auth" ++ [34, 44, 32])) := by
    rw [ascii_ofList, ascii_ofList, ascii_ofList, ascii_ofList]
    rfl
  have hnonce : ascii ", nonce=\"" = 44 :: 32 :: (ascii "nonce" ++ [61, 34]) := by
    rw [ascii_ofList, ascii_ofList]
    rfl
  rcases hmode with rfl | rfl | rfl <;>
    simp only [challengeParts, challengeValue, assigned, LibEst.Client.DigestRoundTrip.quote, hrealm,
      hquote, hbasic, hbearer, hdigest, hnonce, List.append_assoc, List.cons_append, List.nil_append]

theorem challenged_text (h : Plain realm now) (hmode : Challenging mode) :
    (View.challenged mode realm now).text =
      message (ascii "HTTP/1.1 401 Unauthorized") (challengeFields h mode) [] := by
  have hfront : ascii "HTTP/1.1 401 Unauthorized\r\nContent-Length: 0\r\nWWW-Authenticate: " =
      ascii "HTTP/1.1 401 Unauthorized" ++ 13 :: 10 :: (ascii "Content-Length" ++ 58 :: 32 ::
        (ascii "0" ++ 13 :: 10 :: (ascii "WWW-Authenticate" ++ [58, 32]))) := by
    rw [ascii_ofList, ascii_ofList, ascii_ofList, ascii_ofList, ascii_ofList]
    rfl
  have heol : eol = [13, 10] := by decide
  simp only [View.text, View.parts, challengeParts_eq hmode, partsText, List.flatMap_cons,
    List.flatMap_nil, Part.text, message, fieldLines, challengeFields, Field.line, field, lineEnd,
    hfront, heol, List.append_assoc, List.cons_append, List.nil_append, List.append_nil]

theorem challengeValue_front (hmode : Challenging mode) :
    (challengeValue mode realm now).head? ≠ some 32 := by
  rcases hmode with rfl | rfl | rfl <;> exact show some _ ≠ some _ by decide

theorem challenged_received (ctx : ClientCtx) (op : EstOperation) (h : Plain realm now)
    (hmode : Challenging mode) (hsilent : scanBoundary (challengeValue mode realm now) = .silent) :
    parseResponse ctx op (View.challenged mode realm now).text =
      some ((View.challenged mode realm now).received ctx) := by
  have hheader := field_header isName_wwwAuthenticate (challengeValue_bytes h mode)
    (challengeValue_front hmode)
  have hlength := field_header isName_contentLength
    (show ∀ c ∈ ascii "0", LineByte c by decide) (by decide)
  have hall : ∀ f ∈ challengeFields h mode, Silent f := by
    intro f hf
    simp only [challengeFields, List.mem_cons, List.not_mem_nil, or_false] at hf
    rcases hf with rfl | rfl
    · rw [Silent, hlength]
      decide
    · rw [Silent, hheader]
      exact hsilent
  have hhdrs : (challengeFields h mode).map Field.header =
      [⟨ascii "Content-Length", ascii "0"⟩,
        ⟨ascii "WWW-Authenticate", challengeValue mode realm now⟩] := by
    simp only [challengeFields, List.map_cons, List.map_nil, hheader, hlength]
  have hparsed : estIoParseHttpAuthRequest { ctx with lastHttpStatus := 401 }
      [⟨ascii "Content-Length", ascii "0"⟩,
        ⟨ascii "WWW-Authenticate", challengeValue mode realm now⟩] =
      challengedBy { ctx with lastHttpStatus := 401 } mode realm now :=
    parseHttpAuthRequest_challenge _ h hmode rfl
  have hline : ∀ c ∈ ascii "HTTP/1.1 401 Unauthorized", LineByte c := ascii_forall (by decide)
  have hsplit : ascii "HTTP/1.1 401 Unauthorized" = ascii "HTTP/1.1 401" ++ ascii " Unauthorized" := by
    rw [ascii_ofList, ascii_ofList, ascii_ofList]
    rfl
  have hlong : 12 ≤ (ascii "HTTP/1.1 401 Unauthorized").length := by
    rw [ascii_ofList]
    decide
  have hstatusCode : estIoParseResponseStatusCode (ascii "HTTP/1.1 401 Unauthorized") = 401 := by
    rw [hsplit]
    exact status_line (by simp [statusCodes]) _
  rw [challenged_text h hmode, parseResponse_error ctx op hline hlong hstatusCode
    (by decide) (by simp [challengeFields]) (by simp [challengeFields, maxHeaders]) hall, hhdrs,
    statusError, if_neg (by decide), if_neg (by decide), if_neg (by decide), if_neg (by decide),
    if_pos rfl, hparsed]
  rfl

theorem challengeValue_length (h : Plain realm now) (mode : AuthMode) :
    (challengeValue mode realm now).length ≤ 1000 := by
  have hsize : realm.length ≤ 255 := h.size
  have hnonce := (LibEst.Client.DigestRoundTrip.decimal_field h.nonce).2
  have hwords : (ascii "realm").length ≤ 10 ∧ (ascii "nonce").length ≤ 10 ∧
      (ascii "qop").length ≤ 10 ∧ (ascii "auth").length ≤ 10 ∧ (ascii "Basic").length ≤ 10 ∧
      (ascii "Digest").length ≤ 10 ∧ (ascii "Bearer").length ≤ 10 := by decide
  unfold challengeValue assigned
  split <;> simp only [List.length_append, List.length_cons, List.length_nil] <;> omega

theorem challenged_length (h : Plain realm now) (hmode : Challenging mode) :
    (View.challenged mode realm now).text.length ≤ estCaMax := by
  have hvalue := challengeValue_length h mode
  have hline : (ascii "HTTP/1.1 401 Unauthorized").length ≤ 100 := ascii_length_le (by decide)
  have hlength : (ascii "Content-Length").length ≤ 100 := ascii_length_le (by decide)
  have hzero : (ascii "0").length ≤ 100 := ascii_length_le (by decide)
  have hname : (ascii "WWW-Authenticate").length ≤ 100 := ascii_length_le (by decide)
  rw [challenged_text h hmode]
  simp only [message_length, challengeFields, List.flatMap_cons, List.flatMap_nil, field_length,
    List.length_append, List.length_nil, estCaMax]
  omega

end Challenged

section Received

theorem keys_text (key cert : Bytes) : (View.keys key cert).text = keygenStream key cert := by
  simp only [View.text, View.parts, keygenParts, keygenStream, LibEst.Server.KeygenResponse.keygenWrites,
    partsText, List.map_cons, List.map_nil, List.flatMap_cons, List.flatMap_nil, Part.text,
    List.flatten_cons, List.flatten_nil]

theorem done_text : View.done.text = statusOk := List.append_nil _

theorem done_received (ctx : ClientCtx) {op : EstOperation} (h : noContent op = true) :
    parseResponse ctx op View.done.text = some (View.done.received ctx) := by
  have hkeygen : op ≠ .serverKeygen := by
    rintro rfl
    cases h
  have hsplit : statusOk = ascii "HTTP/1.1 200" ++ ascii " OK\r\nStatus: 200 OK\r\n" := by
    rw [statusOk, ascii_ofList, ascii_ofList, ascii_ofList]
    rfl
  have hstatus : estIoParseResponseStatusCode View.done.text = 200 := by
    rw [done_text, hsplit]
    exact status_line (by simp [statusCodes]) _
  rw [parseResponse, hstatus]
  dsimp only
  rw [if_neg hkeygen, if_pos rfl, if_pos h]
  rfl

/-- Whatever the server has to tell, the client gets from the text, in whatever pieces
it comes. -/
theorem view_received {op : EstOperation} {view : View} (h : view.Fits op) (ctx : ClientCtx)
    {chunks : List Bytes} (hne : ∀ chunk ∈ chunks, chunk ≠ []) (hchunks : chunks.flatten = view.text) :
    estIoGetResponseInternal ctx op (chunks.map some) = some (view.received ctx) := by
  have hread (htext : view.text ≠ []) (hsize : view.text.length ≤ estCaMax)
      (hparse : parseResponse ctx op view.text = some (view.received ctx)) :
      estIoGetResponseInternal ctx op (chunks.map some) = some (view.received ctx) :=
    (getResponse_chunks ctx op hne hchunks htext hsize).trans hparse
  cases view with
  | content type text =>
    obtain ⟨hparse, hsize⟩ := content_received ctx h
    apply hread _ hsize hparse
    rw [content_text h.2.2.2.1, Response.text]
    simp
  | keys key cert =>
    obtain ⟨rfl, hkey, hcert, hkeySymbol, hcertSymbol⟩ := h
    rw [keys_text] at hchunks
    rw [getResponse_keygenStream ctx hkey hcert hne hchunks, if_neg]
    · rfl
    · rw [← Bool.not_eq_false, ← Bool.not_eq_false, hkey.onlyWhitespace_iff, hcert.onlyWhitespace_iff]
      exact not_or.mpr ⟨not_not.mpr hkeySymbol, not_not.mpr hcertSymbol⟩
  | done =>
    apply hread _ _ (done_received ctx h)
    · rw [done_text]
      exact ascii_ne_nil
    · rw [done_text]
      exact ascii_length_le (by decide)
  | refused keepAlive rc =>
    apply hread _ (refused_length keepAlive rc) (refused_received ctx op keepAlive rc)
    rw [refused_text]
    exact message_ne_nil
  | retry delay =>
    apply hread _ (retry_length h) (retry_received ctx op h)
    rw [retry_text]
    exact message_ne_nil
  | challenged mode realm now =>
    obtain ⟨hmode, hplain, hsilent⟩ := h
    apply hread _ (challenged_length hplain hmode) (challenged_received ctx op hplain hmode hsilent)
    rw [challenged_text hplain hmode]
    exact message_ne_nil

end Received

end LibEst.Wire.Replies
