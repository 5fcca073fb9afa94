import LibEst.Client.Http

/-! The header of an HTTP request as the server reads it: where it ends, what its
first line says, and which fields it has. -/
namespace LibEst.Server.HttpMessage

open LibEst.Basic LibEst.Base64 LibEst.Lib.ByteString LibEst.SafeStr
open LibEst.Server.AuthHeader LibEst.Client.Http

section RequestLength

/-- Neither printable nor a line end; bytes from 128 on are let through. -/
def malformed (c : UInt8) : Bool :=
  ¬ (32 ≤ c ∧ c ≤ 126) ∧ c ≠ 13 ∧ c ≠ 10 ∧ c < 128

/-- The scan of `get_request_len` from position `i` on. The last byte is only ever
looked at as a successor. -/
def requestLenFrom (i : Nat) : Bytes → Int
  | c :: next :: rest =>
      if malformed c then -1
      else if c = 10 ∧ next = 10 then (i : Int) + 2
      else if c = 10 ∧ next = 13 ∧ rest.head? = some 10 then (i : Int) + 3
      else requestLenFrom (i + 1) (next :: rest)
  | _ => 0

/-- The length of a request header with its empty line; zero where it is not
complete yet, negative where it is malformed. -/
def getRequestLen (buf : Bytes) : Int := requestLenFrom 0 buf

example : getRequestLen (ascii "GET / HTTP/1.1\r\n\r\nbody") = 18 ∧
    getRequestLen (ascii "GET / HTTP/1.1\r\n\r") = 0 := by decide

/-- A header that is complete ends where it ends, whatever follows it. -/
theorem requestLenFrom_append {i : Nat} {buf : Bytes} (h : 0 < requestLenFrom i buf) (more : Bytes) :
    requestLenFrom i (buf ++ more) = requestLenFrom i buf := by
  induction buf generalizing i with
  | nil => exact absurd h (Int.lt_irrefl 0)
  | cons c tail ih =>
    cases tail with
    | nil => exact absurd h (Int.lt_irrefl 0)
    | cons next rest =>
      rw [requestLenFrom] at h
      rw [List.cons_append, List.cons_append, requestLenFrom, requestLenFrom]
      split_ifs at h with hbad hlf hcrlf
      · rw [if_pos hbad, if_pos hbad]
      · rw [if_neg hbad, if_pos hlf, if_neg hbad, if_pos hlf]
      · have hmore : c = 10 ∧ next = 13 ∧ (rest ++ more).head? = some 10 := by
          refine ⟨hcrlf.1, hcrlf.2.1, ?_⟩
          rw [List.head?_append, hcrlf.2.2, Option.some_or]
        rw [if_neg hbad, if_neg hlf, if_pos hmore, if_neg hbad, if_neg hlf, if_pos hcrlf]
      · cases rest with
        | nil => exact absurd h (Int.lt_irrefl 0)
        | cons r rest =>
          -- the byte that decides is in the buffer already
          have hmore : ¬ (c = 10 ∧ next = 13 ∧ (r :: rest ++ more).head? = some 10) := hcrlf
          rw [if_neg hbad, if_neg hlf, if_neg hmore, if_neg hbad, if_neg hlf, if_neg hcrlf]
          exact ih h

theorem requestLenFrom_le {i : Nat} {buf : Bytes} :
    requestLenFrom i buf ≤ (i : Int) + buf.length := by
  induction buf generalizing i with
  | nil =>
    rw [requestLenFrom]
    · simp
    · simp
  | cons c tail ih =>
    cases tail with
    | nil =>
      rw [requestLenFrom]
      · simp
        omega
      · simp
    | cons next rest =>
      rw [requestLenFrom]
      have htail := @ih (i + 1)
      simp only [List.length_cons] at htail ⊢
      split_ifs with hbad hlf hcrlf
      · omega
      · omega
      · cases rest with
        | nil => cases hcrlf.2.2
        | cons r rest =>
          simp only [List.length_cons]
          omega
      · push_cast at htail ⊢
        omega

theorem getRequestLen_append {buf : Bytes} (h : 0 < getRequestLen buf) (more : Bytes) :
    getRequestLen (buf ++ more) = getRequestLen buf := requestLenFrom_append h more

theorem getRequestLen_le (buf : Bytes) : getRequestLen buf ≤ buf.length := by
  have hle := @requestLenFrom_le 0 buf
  rwa [Int.natCast_zero, Int.zero_add] at hle

end RequestLength

section Message

/-- `mg_request_info`, as far as the server reads it. -/
structure RequestInfo where
  requestMethod : Bytes
  uri : Bytes
  httpVersion : Bytes
  httpHeaders : List HttpHeader
  deriving DecidableEq

/-- The size of the array of header fields. -/
def maxHttpHeaders : Nat := 64

/-- The fields of a header, at most `limit` of them. -/
def parseFields : (limit : Nat) → Bytes → List HttpHeader
  | 0, _ => []
  | limit + 1, text =>
      let (hdr, rest) := parseHeader text
      if hdr.name = [] then [] else hdr :: parseFields limit rest

/-- `parse_http_message` on a complete header, whose last byte gives way to the zero
that ends the text. -/
def parseHttpMessage (limit : Nat) (header : Bytes) : RequestInfo :=
  let text := header.dropLast.dropWhile isspace
  let (method, text) := skip (ascii " ") text
  let (uri, text) := skip (ascii " ") text
  let (version, text) := skip lineEnd text
  { requestMethod := method, uri := uri, httpVersion := version
    httpHeaders := parseFields limit text }

def isValidHttpMethod (method : Bytes) : Bool :=
  ascii "GET" <+: method ∨ ascii "POST" <+: method

/-- `parse_http_request` on the memory of the buffer; null where it fails. -/
def parseHttpRequest (memory : Bytes) : Option RequestInfo :=
  let length := getRequestLen memory
  let info := parseHttpMessage maxHttpHeaders (memory.take length.toNat)
  if 0 < length ∧ isValidHttpMethod info.requestMethod ∧ ascii "HTTP/" <+: info.httpVersion then
    some { info with httpVersion := info.httpVersion.drop 5 }
  else none

def isValidUri (uri : Bytes) : Bool := ascii "/" <+: uri ∨ uri = ascii "*"

/-- The value of the first field of that name. -/
def getHeader (headers : List HttpHeader) (name : String) : Option Bytes :=
  (headers.find? fun hdr => hdr.name.map tolower = (ascii name).map tolower).map HttpHeader.value

example : (parseHttpRequest (ascii "POST /a HTTP/1.1\r\nContent-Length: 4\r\n\r\nbody")).map
    (fun info => getHeader info.httpHeaders "content-length") = some (some (ascii "4")) := by
  decide +kernel

end Message

end LibEst.Server.HttpMessage
