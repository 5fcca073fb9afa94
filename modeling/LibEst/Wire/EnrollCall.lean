import LibEst.Base64Reads
import LibEst.Client.PathSegment
import LibEst.Client.RequestBuffer
import LibEst.Wire.Dispatch
import LibEst.Wire.Requests

/-! An enrollment from one end to the other: the request that the client puts together is
read by the server, goes to the handler of its operation, and what the handler decides is
what the client gets. -/
namespace LibEst.Wire.EnrollCall

open LibEst.Basic LibEst.OpenSsl LibEst.Base64 LibEst.Lib.ByteString LibEst.Lib.Trace LibEst.Asn1
open LibEst.SafeStr
open LibEst.Base64Reads (groups_split)
open LibEst.Server.AuthDigest LibEst.Server.AuthHeader LibEst.Server.HttpMessage LibEst.Server.Framing
open LibEst.Server.EnrollAuth LibEst.Server.Uri LibEst.Server.Routing
open LibEst.Server.RoutingExact (targetPath_shape)
open LibEst.Server.HttpRequest
open LibEst.Client.Context LibEst.Client.AuthHeader LibEst.Client.Enroll
open LibEst.Client.Request hiding getHeader
open LibEst.Client.Http LibEst.Client.PathSegment LibEst.Client.RequestBuffer
open LibEst.Client.ResponseText
open LibEst.Wire.Message LibEst.Wire.Replies LibEst.Wire.Dispatch LibEst.Wire.Requests

section Heads

/-- The texts of a context that stand in every request. -/
structure Addressed (env : ClientEnv) (ctx : ClientCtx) : Prop where
  agent : ∀ c ∈ env.userAgent, HeadByte c
  server : ∀ c ∈ ctx.estServer, HeadByte c
  segment : ∀ c ∈ pathSegment ctx, HeadByte c ∧ c ≠ 32

def lineValue : AuthLine → Bytes
  | .value text => text
  | .absent | .wiped | .undefined => []

def Spoken (line : AuthLine) : Prop := ∀ c ∈ lineValue line, HeadByte c

theorem isName_userAgent : IsName "User-Agent" := isName_ofList (by decide)
theorem isName_accept : IsName "Accept" := isName_ofList (by decide)
theorem isName_authorization : IsName "Authorization" := isName_ofList (by decide)

theorem headByte_append {front back : Bytes} (hfront : ∀ c ∈ front, HeadByte c)
    (hback : ∀ c ∈ back, HeadByte c) : ∀ c ∈ front ++ back, HeadByte c := by
  intro c hc
  rcases List.mem_append.mp hc with h | h
  · exact hfront c h
  · exact hback c h

variable {env : ClientEnv} {ctx : ClientCtx}

def hostValue (ctx : ClientCtx) : Bytes := ctx.estServer ++ ascii ":" ++ decimal ctx.estPortNum

theorem Addressed.host (h : Addressed env ctx) : ∀ c ∈ hostValue ctx, HeadByte c :=
  headByte_append (headByte_append h.server (ascii_forall (by decide))) (headByte_decimal _)

/-- The fields of all requests. -/
def commonFields (h : Addressed env ctx) : List Field :=
  [field "User-Agent" env.userAgent isName_userAgent fun c hc => (h.agent c hc).2,
    field "Connection" (ascii "close") isName_connection (ascii_forall (by decide)),
    field "Host" (hostValue ctx) isName_host fun c hc => (h.host c hc).2,
    field "Accept" (ascii "*/*") isName_accept (ascii_forall (by decide))]

def contentFields (length : Nat) : List Field :=
  [field "Content-Type" (ascii "application/pkcs10") isName_contentType (ascii_forall (by decide)),
    field "Content-Length" (decimal length) isName_contentLength (lineByte_decimal length)]

def authFields : (line : AuthLine) → Spoken line → List Field
  | .value text, h => [field "Authorization" text isName_authorization fun c hc => (h c hc).2]
  | .absent, _ | .wiped, _ | .undefined, _ => []

def targetOf (ctx : ClientCtx) (resource : Bytes) : Bytes :=
  estPathPrefix ++ pathSegment ctx ++ ascii "/" ++ resource

theorem commonFields_sound (h : Addressed env ctx) :
    ∀ f ∈ commonFields h, ∀ c ∈ f.name ++ 58 :: f.text, malformed c = false := by
  intro f hf
  simp only [commonFields, List.mem_cons, List.not_mem_nil, or_false] at hf
  rcases hf with rfl | rfl | rfl | rfl
  · exact field_sound isName_userAgent (ascii_forall (by decide)) h.agent
  · exact field_sound isName_connection (ascii_forall (by decide)) (ascii_forall (by decide))
  · exact field_sound isName_host (ascii_forall (by decide)) h.host
  · exact field_sound isName_accept (ascii_forall (by decide)) (ascii_forall (by decide))

theorem contentFields_sound (length : Nat) :
    ∀ f ∈ contentFields length, ∀ c ∈ f.name ++ 58 :: f.text, malformed c = false := by
  intro f hf
  simp only [contentFields, List.mem_cons, List.not_mem_nil, or_false] at hf
  rcases hf with rfl | rfl
  · exact field_sound isName_contentType (ascii_forall (by decide)) (ascii_forall (by decide))
  · exact field_sound isName_contentLength (ascii_forall (by decide)) (headByte_decimal length)

theorem authFields_sound {line : AuthLine} (h : Spoken line) :
    ∀ f ∈ authFields line h, ∀ c ∈ f.name ++ 58 :: f.text, malformed c = false := by
  cases line with
  | value text =>
    intro f hf
    rw [List.mem_singleton.mp hf]
    exact field_sound isName_authorization (ascii_forall (by decide)) h
  | absent | wiped | undefined =>
    intro f hf
    cases hf

theorem target_bytes (h : Addressed env ctx) {resource : Bytes}
    (hresource : ∀ c ∈ resource, HeadByte c ∧ c ≠ 32) :
    ∀ c ∈ targetOf ctx resource, malformed c = false ∧ LineByte c ∧ c ≠ 32 := by
  have hfront : ∀ c ∈ estPathPrefix, HeadByte c ∧ c ≠ 32 := ascii_forall (by decide)
  have hslash : ∀ c ∈ ascii "/", HeadByte c ∧ c ≠ 32 := ascii_forall (by decide)
  intro c hc
  have hbyte : HeadByte c ∧ c ≠ 32 := by
    simp only [targetOf, List.mem_append] at hc
    rcases hc with ((hc | hc) | hc) | hc
    · exact hfront c hc
    · exact h.segment c hc
    · exact hslash c hc
    · exact hresource c hc
  exact ⟨hbyte.1.1, hbyte.1.2, hbyte.2⟩

theorem enrollResource_bytes (op : EstOperation) :
    ∀ c ∈ enrollResource op, HeadByte c ∧ c ≠ 32 := by
  cases op <;> exact ascii_forall (by decide)

/-- The head of a request of the client to enroll. -/
def enrollHead (h : Addressed env ctx) (op : EstOperation) (length : Nat) {line : AuthLine}
    (hspoken : Spoken line) : Head where
  method := ascii "POST"
  target := targetOf ctx (enrollResource op)
  fields := commonFields h ++ contentFields length ++ authFields line hspoken
  methodKnown := Or.inr rfl
  targetRooted := rfl
  targetWord := target_bytes h (enrollResource_bytes op)
  fieldsNe := by simp [commonFields]
  fieldsLe := by
    cases line <;> simp [commonFields, contentFields, authFields, maxHttpHeaders]
  fieldsSound := by
    intro f hf
    rcases List.mem_append.mp hf with hfront | hauth
    · rcases List.mem_append.mp hfront with hcommon | hcontent
      · exact commonFields_sound h f hcommon
      · exact contentFields_sound length f hcontent
    · exact authFields_sound hspoken f hauth

theorem authText_fields {line : AuthLine} (hspoken : Spoken line) :
    authText line = (authFields line hspoken).flatMap Field.line := by
  have hauthorization : ascii "Authorization: " = ascii "Authorization" ++ [58, 32] := ascii_named rfl
  cases line with
  | value text =>
    simp only [authText, authFields, List.flatMap_cons, List.flatMap_nil, Field.line, field, crlf,
      lineEnd, hauthorization, List.append_assoc, List.cons_append, List.nil_append, List.append_nil]
  | absent | wiped | undefined => rfl

theorem contentFields_text (length : Nat) :
    ascii "Content-Type: application/pkcs10" ++ crlf ++ ascii "Content-Length: " ++ decimal length ++
      crlf = (contentFields length).flatMap Field.line := by
  have htype : ascii "Content-Type: application/pkcs10" =
      ascii "Content-Type" ++ 58 :: 32 :: ascii "application/pkcs10" := ascii_assigned rfl
  have hlength : ascii "Content-Length: " = ascii "Content-Length" ++ [58, 32] := ascii_named rfl
  simp only [contentFields, List.flatMap_cons, List.flatMap_nil, Field.line, field, crlf, lineEnd,
    htype, hlength, List.append_assoc, List.cons_append, List.nil_append, List.append_nil]

theorem requestLines_text (h : Addressed env ctx) (method resource : Bytes) :
    requestLines env ctx method resource =
      method ++ 32 :: (targetOf ctx resource ++ 32 :: ascii "HTTP/1.1") ++ crlf ++
        (commonFields h).flatMap Field.line := by
  have hspace : ascii " " = [32] := ascii_ofList _
  have hversion : ascii " HTTP/1.1" = 32 :: ascii "HTTP/1.1" := by
    rw [ascii_ofList, ascii_ofList]
    rfl
  have hagent : ascii "User-Agent: " = ascii "User-Agent" ++ [58, 32] := ascii_named rfl
  have hconnection : ascii "Connection: close" = ascii "Connection" ++ 58 :: 32 :: ascii "close" :=
    ascii_assigned rfl
  have hhost : ascii "Host: " = ascii "Host" ++ [58, 32] := ascii_named rfl
  have haccept : ascii "Accept: */*" = ascii "Accept" ++ 58 :: 32 :: ascii "*/*" := ascii_assigned rfl
  unfold requestLines targetOf commonFields hostValue
  rw [hspace, hversion, hagent, hconnection, hhost, haccept]
  simp only [List.flatMap_cons, List.flatMap_nil, Field.line, field, crlf, lineEnd]
  simp only [List.append_assoc, List.cons_append, List.nil_append, List.append_nil]

/-- The client writes a request line by line. -/
theorem wholeHeader_text (h : Addressed env ctx) (op : EstOperation) (length : Nat) (auth : AuthEnv)
    (hspoken : Spoken (authLine auth ctx (resourceUri (enrollResource op)))) (rest : Bytes) :
    wholeHeader env auth ctx op length ++ crlf ++ rest = (enrollHead h op length hspoken).text rest := by
  have hgroup : headerLines env ctx op length =
      requestLines env ctx (ascii "POST") (enrollResource op) ++ (contentFields length).flatMap Field.line := by
    rw [← contentFields_text]
    simp only [headerLines, List.append_assoc]
  rw [wholeHeader, hgroup, requestLines_text h, authText_fields hspoken]
  unfold Head.text message fieldLines Head.line enrollHead
  simp only [List.flatMap_append, crlf, lineEnd]
  simp only [List.append_assoc, List.cons_append, List.nil_append]

end Heads

section Headers

variable {env : ClientEnv} {ctx : ClientCtx} {name : String}

/-- The credentials in a request, as the server finds them. -/
def sentAuthorization : AuthLine → Option Bytes
  | .value text => some text
  | .absent | .wiped | .undefined => none

theorem commonFields_other (h : Addressed env ctx)
    (hagent : (ascii "User-Agent").map tolower ≠ (ascii name).map tolower)
    (hconnection : (ascii "Connection").map tolower ≠ (ascii name).map tolower)
    (hhost : (ascii "Host").map tolower ≠ (ascii name).map tolower)
    (haccept : (ascii "Accept").map tolower ≠ (ascii name).map tolower) :
    ∀ hdr ∈ (commonFields h).map Field.header, hdr.name.map tolower ≠ (ascii name).map tolower := by
  intro hdr hmem
  obtain ⟨f, hf, rfl⟩ := List.mem_map.mp hmem
  simp only [commonFields, List.mem_cons, List.not_mem_nil, or_false] at hf
  rcases hf with rfl | rfl | rfl | rfl
  · exact hagent
  · exact hconnection
  · exact hhost
  · exact haccept

variable (h : Addressed env ctx) (op : EstOperation) (length : Nat) {line : AuthLine}
  (hspoken : Spoken line)

theorem enrollHead_headers : (enrollHead h op length hspoken).info.httpHeaders =
    (commonFields h).map Field.header ++ (⟨ascii "Content-Type", ascii "application/pkcs10"⟩ ::
      ⟨ascii "Content-Length", decimal length⟩ :: (authFields line hspoken).map Field.header) := by
  have htype : (ascii "application/pkcs10").head? ≠ some 32 := by
    rw [ascii_ofList]
    decide
  show (commonFields h ++ contentFields length ++ authFields line hspoken).map Field.header = _
  simp only [List.map_append, contentFields, List.map_cons, List.append_assoc, List.cons_append,
    List.nil_append]
  rw [field_header isName_contentType _ htype,
    field_header isName_contentLength _ (decimal_front length)]

theorem enrollHead_connection :
    getHeader (enrollHead h op length hspoken).info.httpHeaders "Connection" =
      some (ascii "close") := by
  have hclose : (ascii "close").head? ≠ some 32 := by
    rw [ascii_ofList]
    decide
  have hagent : ∀ hdr ∈ [(field "User-Agent" env.userAgent isName_userAgent
      fun c hc => (h.agent c hc).2).header],
      hdr.name.map tolower ≠ (ascii "Connection").map tolower := by
    intro hdr hmem
    rw [List.mem_singleton.mp hmem]
    exact name_ne (by decide)
  rw [enrollHead_headers, commonFields, List.map_cons, ← List.singleton_append, List.append_assoc,
    getHeader_skip hagent, List.map_cons, List.cons_append, getHeader_first rfl]
  exact congrArg (fun hdr => some (HttpHeader.value hdr)) (field_header isName_connection _ hclose)

theorem enrollHead_contentType :
    getHeader (enrollHead h op length hspoken).info.httpHeaders "Content-Type" =
      some (ascii "application/pkcs10") := by
  rw [enrollHead_headers, getHeader_skip, getHeader_first rfl]
  exact commonFields_other h (name_ne (by decide)) (name_ne (by decide)) (name_ne (by decide))
    (name_ne (by decide))

theorem enrollHead_contentLength :
    getHeader (enrollHead h op length hspoken).info.httpHeaders "Content-Length" =
      some (decimal length) := by
  have htype : ∀ hdr ∈ [(⟨ascii "Content-Type", ascii "application/pkcs10"⟩ : HttpHeader)],
      hdr.name.map tolower ≠ (ascii "Content-Length").map tolower := by
    intro hdr hmem
    rw [List.mem_singleton.mp hmem]
    exact name_ne (by decide)
  rw [enrollHead_headers, getHeader_skip, ← List.singleton_append, getHeader_skip htype,
    getHeader_first rfl]
  exact commonFields_other h (name_ne (by decide)) (name_ne (by decide)) (name_ne (by decide))
    (name_ne (by decide))

theorem enrollHead_authorization (hfront : (lineValue line).head? ≠ some 32) :
    getHeader (enrollHead h op length hspoken).info.httpHeaders "Authorization" =
      sentAuthorization line := by
  have hcontent : ∀ hdr ∈ [(⟨ascii "Content-Type", ascii "application/pkcs10"⟩ : HttpHeader),
      ⟨ascii "Content-Length", decimal length⟩],
      hdr.name.map tolower ≠ (ascii "Authorization").map tolower := by
    intro hdr hmem
    rcases List.mem_cons.mp hmem with rfl | hlast
    · exact name_ne (by decide)
    · rw [List.mem_singleton.mp hlast]
      exact name_ne (by decide)
  have hgroup : ∀ rest : List HttpHeader, ⟨ascii "Content-Type", ascii "application/pkcs10"⟩ ::
      ⟨ascii "Content-Length", decimal length⟩ :: rest =
      [⟨ascii "Content-Type", ascii "application/pkcs10"⟩, ⟨ascii "Content-Length", decimal length⟩] ++
        rest := fun _ => rfl
  rw [enrollHead_headers, getHeader_skip, hgroup, getHeader_skip hcontent]
  · cases line with
    | value text =>
      have hheader : (field "Authorization" text isName_authorization fun c hc => (hspoken c hc).2).header =
          ⟨ascii "Authorization", text⟩ := field_header isName_authorization _ hfront
      rw [authFields, List.map_singleton, hheader, getHeader_first rfl]
      rfl
    | absent | wiped | undefined => rfl
  · exact commonFields_other h (name_ne (by decide)) (name_ne (by decide)) (name_ne (by decide))
      (name_ne (by decide))

/-- The client asks for the connection to be closed. -/
theorem enrollHead_closes (round : Round) : (enrollHead h op length hspoken).keeps round = false := by
  have hwants : wantsKeepAlive (enrollHead h op length hspoken).info = false := by
    rw [wantsKeepAlive, enrollHead_connection]
    dsimp only
    rw [ascii_ofList, ascii_ofList]
    decide
  rw [Head.keeps, shouldKeepAlive, hwants, Bool.and_false, Bool.and_false]

end Headers

section Credentials

variable {auth : AuthEnv} {ctx : ClientCtx}

theorem headByte_groups (src : Bytes) : ∀ c ∈ groups src, HeadByte c := by
  have halphabet : ∀ c ∈ alphabet, HeadByte c := ascii_forall (by decide)
  obtain ⟨body, hsplit, hbody⟩ := groups_split src
  rw [hsplit]
  apply headByte_append
  · exact fun c hc => halphabet c (hbody c hc)
  · intro c hc
    rw [List.eq_of_mem_replicate hc]
    decide

theorem headByte_encoded {src text : Bytes} {maxDstLen : Nat}
    (h : estBase64Encode src maxDstLen false = some text) : ∀ c ∈ text, HeadByte c := by
  unfold estBase64Encode at h
  dsimp only at h
  split_ifs at h <;> cases h
  · exact fun c hc => absurd hc List.not_mem_nil
  · exact fun c hc => absurd hc List.not_mem_nil
  · exact headByte_groups src

theorem headByte_hex (src : Bytes) : ∀ c ∈ estHexToStr src, HeadByte c := by
  intro c hc
  have hdigit := estHexToStr_isHexDigit c hc
  rw [isHexDigit, decide_eq_true_eq] at hdigit
  rcases hdigit with ⟨hlow, hhigh⟩ | ⟨hlow, hhigh⟩
  · exact headByte_printable (UInt8.le_trans (by decide) hlow) (UInt8.le_trans hhigh (by decide))
  · exact headByte_printable (UInt8.le_trans (by decide) hlow) (UInt8.le_trans hhigh (by decide))

/-- The texts of a digest that are not the client's own can stand in a line. -/
def DigestTexts (auth : AuthEnv) (ctx : ClientCtx) : Prop :=
  ctx.authMode = .digest →
    ∀ c ∈ (digestCredentials ctx auth.stack).1 ++ ctx.realm ++ ctx.sNonce, HeadByte c

theorem resourceUri_bytes (op : EstOperation) : ∀ c ∈ resourceUri (enrollResource op), HeadByte c :=
  headByte_append (headByte_append (ascii_forall (by decide)) (ascii_forall (by decide)))
    fun c hc => (enrollResource_bytes op c hc).1

theorem headByte_digest {user realm nonce uri cnonce response : Bytes}
    (htexts : ∀ c ∈ user ++ realm ++ nonce, HeadByte c) (huri : ∀ c ∈ uri, HeadByte c)
    (hcnonce : ∀ c ∈ cnonce, HeadByte c) (hresponse : ∀ c ∈ response, HeadByte c) :
    ∀ c ∈ digestText user realm nonce uri cnonce response, HeadByte c := by
  have huser : ∀ c ∈ user, HeadByte c :=
    fun c hc => htexts c (List.mem_append_left _ (List.mem_append_left _ hc))
  have hrealm : ∀ c ∈ realm, HeadByte c :=
    fun c hc => htexts c (List.mem_append_left _ (List.mem_append_right _ hc))
  have hnonce : ∀ c ∈ nonce, HeadByte c := fun c hc => htexts c (List.mem_append_right _ hc)
  have hbetween {chars : List Char}
      (h : ∀ c ∈ chars.map fun c => UInt8.ofNat c.toNat, HeadByte c) :
      ∀ c ∈ ascii (String.ofList chars), HeadByte c := ascii_forall h
  unfold digestText
  apply headByte_append _ (hbetween (by decide))
  apply headByte_append _ hresponse
  apply headByte_append _ (hbetween (by decide))
  apply headByte_append _ hcnonce
  apply headByte_append _ (hbetween (by decide))
  apply headByte_append _ huri
  apply headByte_append _ (hbetween (by decide))
  apply headByte_append _ hnonce
  apply headByte_append _ (hbetween (by decide))
  apply headByte_append _ hrealm
  apply headByte_append _ (hbetween (by decide))
  exact headByte_append (hbetween (by decide)) huser

/-- Whatever the mode, the credentials are one line that does not begin with a space. -/
theorem authLine_spoken (h : DigestTexts auth ctx) (op : EstOperation) :
    Spoken (authLine auth ctx (resourceUri (enrollResource op))) ∧
      (lineValue (authLine auth ctx (resourceUri (enrollResource op)))).head? ≠ some 32 := by
  have hscheme {first : Char} {chars : List Char} (text : Bytes)
      (hfirst : some (UInt8.ofNat first.toNat) ≠ some 32) :
      (ascii (String.ofList (first :: chars)) ++ text).head? ≠ some 32 := by
    rw [ascii_ofList]
    exact hfirst
  have hempty : ([] : Bytes).head? ≠ some 32 := nofun
  unfold authLine
  cases hmode : ctx.authMode with
  | none | fail => exact ⟨fun c hc => absurd hc List.not_mem_nil, hempty⟩
  | basic =>
    cases hvalue : basicValue ctx with
    | none => exact ⟨fun c hc => absurd hc List.not_mem_nil, hempty⟩
    | some value =>
      obtain ⟨text, htext, rfl⟩ := Option.map_eq_some_iff.mp hvalue
      exact ⟨headByte_append (ascii_forall (by decide)) (headByte_encoded htext),
        hscheme text (by decide)⟩
  | token =>
    cases hvalue : bearerValue ctx with
    | none => exact ⟨fun c hc => absurd hc List.not_mem_nil, hempty⟩
    | some value =>
      obtain ⟨text, htext, rfl⟩ := Option.map_eq_some_iff.mp hvalue
      exact ⟨headByte_append (ascii_forall (by decide)) (headByte_encoded htext),
        hscheme text (by decide)⟩
  | digest =>
    cases hvalue : digestValue auth ctx (resourceUri (enrollResource op)) with
    | none => exact ⟨fun c hc => absurd hc List.not_mem_nil, hempty⟩
    | some value =>
      obtain ⟨random, -, rfl⟩ := Option.map_eq_some_iff.mp hvalue
      exact ⟨headByte_append (ascii_forall (by decide)) (headByte_digest (h hmode)
        (resourceUri_bytes op) (headByte_hex random) (headByte_hex _)), hscheme _ (by decide)⟩

end Credentials

section Delivery

variable {brski : Bool} {env : ClientEnv} {x : Exchange} {ctx : ClientCtx} {call : EnrollCall}

/-- A path segment that reaches the server as it is. -/
def Kept (brski : Bool) : Option Bytes → Prop
  | none => True
  | some seg => IsSegment brski seg ∧ 37 ∉ seg ∧ ¬ ascii ".." <+: seg

/-- A call that is written, and whose texts fit into the lines of a request. -/
structure Sendable (brski : Bool) (env : ClientEnv) (x : Exchange) (ctx : ClientCtx)
    (call : EnrollCall) : Prop where
  proceeds : ¬ Refuses env x ctx call
  short : call.body.length ≤ estHttpReqDataMax
  fits : (requestText env x ctx call).length < estHttpReqTotalLen
  own : spill ctx x.stack = []
  agent : ∀ c ∈ env.userAgent, HeadByte c
  server : ∀ c ∈ ctx.estServer, HeadByte c
  kept : Kept brski ctx.uriPathSegment
  texts : DigestTexts { authEnv env x with stack := [] } ctx

/-- A request for a certificate with credentials that are no digest. -/
theorem sendable_undigested (hmode : ctx.authMode ≠ .digest) (hop : call.op = .simpleEnroll)
    (hmemory : call.memory = true) (hshort : call.body.length ≤ estHttpReqDataMax)
    (hfits : (requestText env x ctx call).length < estHttpReqTotalLen)
    (hagent : ∀ c ∈ env.userAgent, HeadByte c) (hserver : ∀ c ∈ ctx.estServer, HeadByte c)
    (hkept : Kept brski ctx.uriPathSegment) : Sendable brski env x ctx call where
  proceeds := by
    intro hrefuses
    cases hrefuses with
    | mode h => exact absurd (hop.symm.trans h.2) (by decide)
    | memory h => exact absurd (hmemory.symm.trans h) (by decide)
    | operation h => exact h (Or.inl hop)
    | random h => exact hmode h.1
    | reenroll h => exact absurd (hop.symm.trans h.1) (by decide)
  short := hshort
  fits := hfits
  own := if_neg fun h => hmode h.1
  agent := hagent
  server := hserver
  kept := hkept
  texts := fun h => absurd h hmode

/-- The credentials of a request. -/
def sentLine (env : ClientEnv) (x : Exchange) (ctx : ClientCtx) (call : EnrollCall) : AuthLine :=
  authLine { authEnv env x with stack := [] } ctx (resourceUri (enrollResource call.op))

theorem headByte_path {c : UInt8} (h : pchar c ∨ c = 47 ∨ c = 37) : HeadByte c ∧ c ≠ 32 := by
  have hmarks : ∀ d ∈ ascii "-._~!$&'()*+,;=:@", HeadByte d ∧ d ≠ 32 := ascii_forall (by decide)
  have hletter {low high : UInt8} (hlow : low ≤ c) (hhigh : c ≤ high) (hspace : 32 < low)
      (hlast : high ≤ 126) : HeadByte c ∧ c ≠ 32 := by
    have hgt : 32 < c := UInt8.lt_of_lt_of_le hspace hlow
    exact ⟨headByte_printable (UInt8.le_of_lt hgt) (UInt8.le_trans hhigh hlast), (UInt8.ne_of_lt hgt).symm⟩
  rcases h with hchar | rfl | rfl
  · rw [pchar, decide_eq_true_eq] at hchar
    rcases hchar with ⟨hlow, hhigh⟩ | ⟨hlow, hhigh⟩ | ⟨hlow, hhigh⟩ | hmark
    · exact hletter hlow hhigh (by decide) (by decide)
    · exact hletter hlow hhigh (by decide) (by decide)
    · exact hletter hlow hhigh (by decide) (by decide)
    · exact hmarks c hmark
  · decide
  · decide

theorem Kept.bytes {ctx : ClientCtx} (h : Kept brski ctx.uriPathSegment) :
    ∀ c ∈ pathSegment ctx, HeadByte c ∧ c ≠ 32 := by
  unfold pathSegment
  cases hsegment : ctx.uriPathSegment with
  | none => exact fun c hc => absurd hc List.not_mem_nil
  | some seg =>
    rw [hsegment] at h
    have hslash : ∀ c ∈ ascii "/", HeadByte c ∧ c ≠ 32 := ascii_forall (by decide)
    intro c hc
    rcases List.mem_append.mp hc with hfront | hseg
    · exact hslash c hfront
    · exact headByte_path (mem_of_pathText h.1.text c hseg)

theorem Sendable.addressed (h : Sendable brski env x ctx call) : Addressed env ctx :=
  ⟨h.agent, h.server, h.kept.bytes⟩

theorem Sendable.spoken (h : Sendable brski env x ctx call) : Spoken (sentLine env x ctx call) :=
  (authLine_spoken h.texts call.op).1

/-- The head of the request of a call. -/
def Sendable.head (h : Sendable brski env x ctx call) : Head :=
  enrollHead h.addressed call.op call.body.length h.spoken

theorem Sendable.wrote (h : Sendable brski env x ctx call) :
    sendEnrollRequest env x ctx call = .wrote ((requestText env x ctx call).map some) := by
  have hrandom : ¬ (ctx.authMode = .digest ∧ x.random = none) := fun hr => h.proceeds (.random hr)
  rw [sendEnrollRequest_assembles h.proceeds,
    (assemble_requestText_iff hrandom).mpr ⟨h.short, h.fits, h.own⟩]

theorem Sendable.text (h : Sendable brski env x ctx call) :
    requestText env x ctx call = h.head.text (call.body ++ crlf) := by
  rw [requestText, List.append_assoc]
  exact wholeHeader_text h.addressed call.op call.body.length _ h.spoken _

theorem Sendable.bodied (h : Sendable brski env x ctx call) : Bodied h.head call.body where
  declared := Or.inl (enrollHead_contentLength _ _ _ _)
  short := by
    have hshort := h.short
    unfold estHttpReqDataMax at hshort
    unfold estMaxContentLen
    omega
  head := by
    have hfits := h.fits
    rw [h.text, Head.text_eq, List.length_append, ← Head.length] at hfits
    have htotal : estHttpReqTotalLen = 5125 := rfl
    have hmax : maxRequestSize = 16384 := rfl
    omega

/-- The request as the server hands it on. -/
def Sendable.frame (h : Sendable brski env x ctx call) : Frame := ⟨h.head.info, call.body⟩


theorem Sendable.closes (h : Sendable brski env x ctx call) (round : Round) : h.head.keeps round = false :=
  enrollHead_closes _ _ _ _ _

theorem Sendable.text_eq (h : Sendable brski env x ctx call) : requestText env x ctx call =
    [((h.head, call.body) : Written)].flatMap Written.text ++ crlf := by
  rw [h.text, List.flatMap_singleton, Written.text, Head.text_eq, ← List.append_assoc,
    ← Head.text_eq]

/-- The server hands one request on, and leaves the line end behind it. -/
theorem Sendable.delivered (h : Sendable brski env x ctx call) (server : Nat → Round) {cuts : List Cut}
    (hcuts : Supplies cuts (requestText env x ctx call).length) :
    processNewConnection server (requestText env x ctx call) cuts = [h.frame] := by
  have hbodied : ∀ w ∈ [((h.head, call.body) : Written)], Bodied w.1 w.2 := by
    intro w hw
    rw [List.mem_singleton.mp hw]
    exact h.bodied
  have hended : Ended server crlf 0 [(h.head, call.body)] := by
    intro hkeeps
    rw [h.closes] at hkeeps
    cases hkeeps
  rw [stream_handled hbodied h.text_eq hended hcuts, handled, h.closes]
  rfl

end Delivery

section Service

variable {U : UriParser} {brski : Bool} {ctx : ClientCtx}

/-- What a request meets on the side of the server besides what it says itself. -/
structure Visit where
  round : Round
  conn : MgConnection
  ssl : Ssl
  /-- The memory behind the target. -/
  behind : Bytes
  mustClose : Bool
  now : Nat
  stale : Option EstOperation
  wire : Wire

/-- What `handle_request` and `est_mg_handler` call the dispatcher with. -/
def Visit.request (visit : Visit) (frame : Frame) : Request where
  conn :=
    { visit.conn with
      source :=
        { visit.conn.source with authorization := getHeader frame.info.httpHeaders "Authorization" } }
  ssl := some visit.ssl
  method := frame.info.requestMethod
  uri := targetPath frame.info.uri
  behindUri := behindPath frame.info.uri visit.behind
  body := frame.body
  contentType := getHeader frame.info.httpHeaders "Content-Type"
  keepAlive := !visit.mustClose && wantsKeepAlive frame.info
  now := visit.now
  stale := visit.stale

/-- The runs of the dispatcher for the requests of a connection. -/
def answers (C : Crypto) (A : Asn1Ops) (U : UriParser) (brski : Bool) (S : HttpServer)
    (visits : Nat → Visit) (stream : Bytes) (cuts : List Cut) : List (Traced HttpEvent EstError) :=
  (processNewConnection (fun i => (visits i).round) stream cuts).mapIdx fun i frame =>
    estHttpRequest C A U brski S ((visits i).request frame) (visits i).wire

/-- An operation without a segment is its own path. -/
theorem targetPath_bare {name : Bytes} (h : OperationText name) :
    targetPath (ascii "/.well-known/est/" ++ name) = ascii "/.well-known/est/" ++ name := by
  have hfront : ∀ c ∈ ascii "/.well-known/est/", c ≠ 63 ∧ c ≠ 37 ∧ c ≠ 0 := ascii_forall (by decide)
  have hname : ∀ c ∈ name, c ≠ 63 ∧ c ≠ 37 ∧ c ≠ 0 := by
    intro c hc
    have hchar := (h.chars c hc).1
    refine ⟨?_, ?_, ?_⟩ <;> rintro rfl <;> exact absurd hchar (by decide)
  have hquery : (ascii "/.well-known/est/" ++ name).takeWhile (· ≠ 63) = ascii "/.well-known/est/" ++ name := by
    rw [List.takeWhile_eq_self_iff]
    intro c hc
    rw [decide_eq_true_eq]
    rcases List.mem_append.mp hc with hmem | hmem
    · exact (hfront c hmem).1
    · exact (hname c hmem).1
  have hlen : min (ascii "/.well-known/est/" ++ name).length estUriMaxLen =
      (ascii "/.well-known/est/").length + name.length := by
    have hfixed : (ascii "/.well-known/est/").length ≤ 17 := ascii_length_le (by decide)
    have hshort := h.short
    unfold LibEst.Client.Api.estMaxPathSegmentLen at hshort
    rw [List.length_append, estUriMaxLen]
    omega
  rw [targetPath, hquery, decodeTarget, hlen,
    urlDecode_append (fun hmem => (hfront 37 hmem).2.1 rfl),
    urlDecode_plain (fun hmem => (hname 37 hmem).2.1 rfl),
    cString_front (fun hmem => (hfront 0 hmem).2.2 rfl),
    cString_eq_self (fun hmem => (hname 0 hmem).2.2 rfl), removeDoubleDots_prefix,
    removeDoubleDots_name h]

theorem enrolls_entry {op : EstOperation} (h : LibEst.Client.RequestBuffer.Enrolls op) :
    ∃ name, (name, op) ∈ operations brski ∧ enrollResource op = ascii name := by
  rcases h with rfl | rfl | rfl
  · exact ⟨"simpleenroll", by cases brski <;> decide, rfl⟩
  · exact ⟨"simplereenroll", by cases brski <;> decide, rfl⟩
  · exact ⟨"serverkeygen", by cases brski <;> decide, rfl⟩

/-- The server takes the target of a call apart into its operation and its segment. -/
theorem Kept.routed (hU : U.Lawful) (h : Kept brski ctx.uriPathSegment) {op : EstOperation}
    (hop : LibEst.Client.RequestBuffer.Enrolls op) (beyond : Bytes) :
    estParseUri U brski (targetPath (targetOf ctx (enrollResource op))) beyond =
      some { rv := .none, operation := some op, pathSeg := ctx.uriPathSegment } := by
  obtain ⟨name, hentry, hresource⟩ := enrolls_entry hop
  have hname := operationText hentry
  have hprefix : ascii "/.well-known/est/" = estPathPrefix ++ [47] := by
    rw [estPathPrefix, ascii_ofList, ascii_ofList]
    rfl
  have hslash : ascii "/" = [47] := ascii_ofList _
  have hvalid (tail : Bytes) : TargetPath (targetPath (ascii "/.well-known/est/" ++ tail)) :=
    targetPath_shape (isValidUri_sent tail)
  rw [hresource]
  cases hsegment : ctx.uriPathSegment with
  | none =>
    have htarget : targetOf ctx (ascii name) = ascii "/.well-known/est/" ++ ascii name := by
      rw [targetOf, pathSegment, hsegment, hprefix, hslash, List.append_nil]
    have hpath := hvalid (ascii name)
    rw [htarget]
    rw [targetPath_bare hname] at hpath ⊢
    exact (Routes.bare ⟨name, hentry, rfl⟩).result hU hpath beyond
  | some seg =>
    rw [hsegment] at h
    obtain ⟨hseg, hescape, hdots⟩ := h
    have htarget : targetOf ctx (ascii name) = ascii "/.well-known/est/" ++ (seg ++ 47 :: ascii name) := by
      rw [targetOf, pathSegment, hsegment, hprefix, hslash]
      simp only [List.append_assoc, List.cons_append, List.nil_append]
    have hpath := hvalid (seg ++ 47 :: ascii name)
    rw [htarget]
    rw [targetPath_sent hseg.text hseg.short (fun c hc => (hname.chars c hc).1) hname.short,
      arrived_plain hseg hname hescape hdots] at hpath ⊢
    exact (Routes.labelled hseg ⟨name, hentry, rfl⟩).result hU hpath beyond

end Service

section Outcome

variable {C : Crypto} {A : Asn1Ops} {U : UriParser} {brski : Bool} {S : HttpServer}
  {env : ClientEnv} {x : Exchange} {ctx : ClientCtx} {call : EnrollCall} {visit : Visit}

/-- What a handler is given of a call. -/
structure Carried (env : ClientEnv) (x : Exchange) (ctx : ClientCtx) (call : EnrollCall)
    (visit : Visit) (r : Request) : Prop where
  session : r.ssl = some visit.ssl
  method : r.method = ascii "POST"
  body : r.body = call.body
  contentType : r.contentType = some (ascii "application/pkcs10")
  credentials : r.conn.source.authorization = sentAuthorization (sentLine env x ctx call)
  user : r.conn.userId = visit.conn.userId

theorem Sendable.carried (h : Sendable brski env x ctx call) (visit : Visit) :
    Carried env x ctx call visit (visit.request h.frame) where
  session := rfl
  method := rfl
  body := rfl
  contentType := enrollHead_contentType h.addressed call.op call.body.length h.spoken
  credentials :=
    enrollHead_authorization h.addressed call.op call.body.length h.spoken
      (authLine_spoken h.texts call.op).2
  user := rfl

theorem Sendable.enrolls (h : Sendable brski env x ctx call) :
    LibEst.Client.RequestBuffer.Enrolls call.op := by
  by_contra hop
  exact h.proceeds (.operation hop)

theorem Sendable.routed (hU : U.Lawful) (h : Sendable brski env x ctx call) :
    estParseUri U brski (visit.request h.frame).uri (visit.request h.frame).behindUri =
      some { rv := .none, operation := some call.op, pathSeg := ctx.uriPathSegment } :=
  h.kept.routed hU h.enrolls _

theorem enrolls_filter {op : EstOperation} (h : LibEst.Client.RequestBuffer.Enrolls op) :
    (some op).filter (fun op => brski || !isBrski op) = some op := by
  rcases h with rfl | rfl | rfl <;> cases brski <;> rfl

/-- What a call comes to is what the handler of its operation decides. -/
theorem Sendable.decides (hU : U.Lawful) (h : Sendable brski env x ctx call) {view : View}
    (hview : Decides C A U brski S (visit.request h.frame) view) :
    OperationDecides C A S (visit.request h.frame) visit.ssl ctx.uriPathSegment call.op view := by
  have hroute := @Sendable.routed U brski env x ctx call visit hU h
  cases hview with
  | noSsl hssl => cases hssl
  | badUri hssl huri hrv =>
    rw [hroute] at huri
    cases huri
    exact absurd rfl hrv
  | unknown hssl huri hrv hop =>
    rw [hroute] at huri
    cases huri
    rw [Option.some_or, enrolls_filter h.enrolls] at hop
    cases hop
  | operation hssl huri hrv hop hdecides =>
    rw [hroute] at huri
    cases huri
    cases hssl
    rw [Option.some_or, enrolls_filter h.enrolls] at hop
    cases hop
    exact hdecides

theorem Sendable.asksFor (hU : U.Lawful) (h : Sendable brski env x ctx call) :
    AsksFor U brski (visit.request h.frame) call.op := by
  intro parsed operation huri hop
  rw [@Sendable.routed U brski env x ctx call visit hU h] at huri
  cases huri
  rw [Option.some_or, enrolls_filter h.enrolls] at hop
  exact (Option.some.inj hop).symm

theorem Sendable.answers_eq (h : Sendable brski env x ctx call) (visits : Nat → Visit)
    {cuts : List Cut} (hcuts : Supplies cuts (requestText env x ctx call).length) :
    answers C A U brski S visits (requestText env x ctx call) cuts =
      [estHttpRequest C A U brski S ((visits 0).request h.frame) (visits 0).wire] := by
  rw [answers, h.delivered _ hcuts]
  rfl

/-- What the handler decides, and how a client reads it. -/
theorem Sendable.answer_read (hmode : S.ctx.estMode = .server) (hU : U.Lawful)
    (h : Sendable brski env x ctx call) {rc : EstError}
    (hvalue : (estHttpRequest C A U brski S (visit.request h.frame) visit.wire).value = some rc)
    (hrc : rc ≠ .httpWrite)
    (hthrough :
      Through (estHttpRequest C A U brski S (visit.request h.frame) visit.wire).events) :
    ∃ view, OperationDecides C A S (visit.request h.frame) visit.ssl ctx.uriPathSegment call.op view ∧
      (Legible view → ∀ (reader : ClientCtx) (chunks : List Bytes), (∀ chunk ∈ chunks, chunk ≠ []) →
        chunks.flatten = writtenBytes
          (estHttpRequest C A U brski S (visit.request h.frame) visit.wire).events →
        estIoGetResponseInternal reader call.op (chunks.map some) = some (view.received reader)) := by
  obtain ⟨view, hview⟩ := request_decided hmode hvalue hrc
  have hwritten := (writes_estHttpRequest hmode hview visit.wire rc hvalue hthrough).1
  refine ⟨view, h.decides hU hview, ?_⟩
  intro hlegible reader chunks hne hchunks
  exact view_received (decides_fits hview (h.asksFor hU) hlegible) reader hne
    (hchunks.trans hwritten)

end Outcome

section Instances

open LibEst.Client.Reference LibEst.Client.ReferenceEnv LibEst.Server.Bracketing
open LibEst.Server.Reference LibEst.Server.RoutingExact

/-- A client with a user name and a password. -/
def basicCtx : ClientCtx := { hostCtx with authMode := .basic }

def shortCall : EnrollCall where
  op := .simpleEnroll
  body := ascii "Y3Ny\n"
  keyBuffers := false
  memory := true

def shortVisit (_ : Nat) : Visit where
  round := openServer 0
  conn := { source := { authorization := none, stack := [] }, userId := [], statusCode := -1 }
  ssl := devSession
  behind := ascii "HTTP/1.1"
  mustClose := false
  now := 0
  stale := none
  wire := []

theorem shortCall_sendable : Sendable true clientEnv noContentAnswer basicCtx shortCall :=
  sendable_undigested (by decide) rfl rfl (ascii_length_le (by decide)) (by decide +kernel)
    (ascii_forall (by decide)) (ascii_forall (by decide)) trivial

end Instances

end LibEst.Wire.EnrollCall
