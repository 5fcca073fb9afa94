import LibEst.Client.HeaderLines
import LibEst.Client.Reference

/-! A successful answer from its text: what a response says about its body, what the
client makes of the text, and when the two agree. -/
namespace LibEst.Client.ResponseText

open LibEst.Basic LibEst.Base64 LibEst.Lib.ByteString LibEst.SafeStr
open LibEst.Server.AuthHeader LibEst.Client.Context LibEst.Client.Http LibEst.Client.HeaderLines
open LibEst.Client.Reference

section Text

/-- A character that does not end a line or a string. -/
def LineByte (c : UInt8) : Prop := c ∉ lineEnd ∧ c ≠ 0

instance (c : UInt8) : Decidable (LineByte c) := inferInstanceAs (Decidable (c ∉ lineEnd ∧ c ≠ 0))

/-- A header field: its name, and the text between the colon and the line end. -/
structure Field where
  name : Bytes
  text : Bytes
  nameNe : name ≠ []
  nameLine : ∀ c ∈ name, c ≠ 58 ∧ LineByte c
  textLine : ∀ c ∈ text, LineByte c

def Field.line (f : Field) : Bytes := f.name ++ 58 :: (f.text ++ lineEnd)

/-- A response with the status of success. -/
structure Response where
  reason : Bytes
  fields : List Field
  body : Bytes
  reasonLine : ∀ c ∈ reason, LineByte c
  fieldsLe : fields.length ≤ maxHeaders

def Response.statusLine (r : Response) : Bytes := ascii "HTTP/1.1 200 " ++ r.reason

/-- The lines of the fields, the empty line, and what follows. -/
def fieldLines (fields : List Field) (rest : Bytes) : Bytes :=
  fields.flatMap Field.line ++ (lineEnd ++ rest)

def Response.text (r : Response) : Bytes :=
  r.statusLine ++ 13 :: 10 :: fieldLines r.fields r.body

/-- A text as the server sends it: its pieces, none of them empty, and then the end
of the connection. -/
structure Delivery (r : Response) where
  chunks : List Bytes
  chunksNe : ∀ chunk ∈ chunks, chunk ≠ []
  whole : chunks.flatten = r.text
  fits : r.text.length ≤ estCaMax

def Delivery.reads {r : Response} (d : Delivery r) : List SslRead := d.chunks.map some

end Text

section Declared

def isOws (c : UInt8) : Bool := c = 32 ∨ c = 9

/-- The value of a field is its text without the blanks around it. -/
def Field.value (f : Field) : Bytes := ((f.text.dropWhile isOws).reverse.dropWhile isOws).reverse

/-- The names of fields are compared without regard to case. -/
def Field.IsNamed (f : Field) (name : String) : Prop :=
  f.name.map tolower = (ascii name).map tolower

/-- Parameters may follow the type. -/
def Field.HasType (f : Field) (op : EstOperation) : Prop := contentType op <+: f.value

def Field.Gives (f : Field) (length : Nat) : Prop :=
  f.value ≠ [] ∧ f.value.all isdigit = true ∧ digitsValue f.value = length

/-- A Content-Type with the type of the operation is present, and Content-Length is
the length of the body. -/
def Response.Declares (r : Response) (op : EstOperation) : Prop :=
  (∃ f ∈ r.fields, f.IsNamed "Content-Type" ∧ f.HasType op) ∧
    (∃ f ∈ r.fields, f.IsNamed "Content-Length") ∧
      ∀ f ∈ r.fields, f.IsNamed "Content-Length" → f.Gives r.body.length

/-- The answer is the body that the response declares, or else an error; an empty
body is a null, and so are both buffers behind an error. -/
def Response.ReadAsDeclared (r : Response) (op : EstOperation)
    (result : Option (ClientCtx × Except EstError Buffers)) : Prop :=
  (r.Declares op → ∃ ctx cert, result = some (ctx, .ok ⟨none, cert⟩) ∧ cert.getD [] = r.body) ∧
    (¬ r.Declares op → ∃ ctx rv, rv ≠ .none ∧ result = some (ctx, .error rv))

end Declared

section Compared

/-- The text behind the colon as the client cuts it: only spaces are passed over. -/
def Field.header (f : Field) : HttpHeader := ⟨f.name, f.text.dropWhile (· = 32)⟩

/-- Every field under the exact name of the content type begins with the type, and
there is one. -/
def Response.Typed (r : Response) (op : EstOperation) : Prop :=
  (∃ f ∈ r.fields, f.name = ascii "Content-Type") ∧
    ∀ f ∈ r.fields, f.name = ascii "Content-Type" →
      contentType op <+: f.text.dropWhile (· = 32)

/-- The last field under the exact name of the content length is read as a number. -/
def Response.Measures (r : Response) (length : Nat) : Prop :=
  ∃ f, (r.fields.filter fun f => f.name = ascii "Content-Length").getLast? = some f ∧
    atoi (f.text.dropWhile (· = 32)) = length

def unbroken (body : Bytes) : Bytes := body.dropWhile (· ∈ lineEnd)

/-- A declared body does not begin with a line break, and its fields are written in
the way they are compared; a body that is not declared is not taken either, also
not without its line breaks. -/
def Response.Plain (r : Response) (op : EstOperation) : Prop :=
  (r.Declares op → (∀ c ∈ r.body.head?, c ∉ lineEnd) ∧ r.Typed op ∧ r.Measures r.body.length) ∧
    (¬ r.Declares op → ¬ (r.Typed op ∧ r.Measures (unbroken r.body).length))

/-- The answer in the buffer, null where the text functions run on behind it: it is
full, and there is no zero in it. -/
def answerInBuffer (ctx : ClientCtx) (op : EstOperation) (reads : List SslRead) :
    Option (ClientCtx × Except EstError Buffers) :=
  match estIoReadRaw [] reads with
  | .error rv => some (ctx, .error rv)
  | .ok raw =>
      if estCaMax ≤ raw.length ∧ 0 ∉ raw then none else estIoGetResponseInternal ctx op reads

/-- A zero behind the text, in the buffer or in the body. -/
def Response.Terminated (r : Response) : Prop := r.text.length < estCaMax ∨ 0 ∈ r.body

end Compared

section Head

theorem Field.zero_notMem_name (f : Field) : (0 : UInt8) ∉ f.name :=
  fun h => (f.nameLine 0 h).2.2 rfl

theorem Field.zero_notMem_text (f : Field) : (0 : UInt8) ∉ f.text :=
  fun h => (f.textLine 0 h).2 rfl

theorem Field.zero_notMem_line (f : Field) : (0 : UInt8) ∉ f.line := by
  simp only [Field.line, List.mem_append, List.mem_cons, f.zero_notMem_name, f.zero_notMem_text,
    false_or, not_or]
  exact ⟨by decide, by decide⟩

theorem Response.zero_notMem_statusLine (r : Response) : (0 : UInt8) ∉ r.statusLine := by
  rw [Response.statusLine, List.mem_append, not_or]
  exact ⟨by decide, fun h => (r.reasonLine 0 h).2 rfl⟩

theorem Response.statusLine_line (r : Response) : ∀ c ∈ r.statusLine, c ∉ lineEnd := by
  intro c hc
  rcases List.mem_append.mp hc with hfixed | hreason
  · exact (show ∀ c ∈ ascii "HTTP/1.1 200 ", c ∉ lineEnd by decide) c hfixed
  · exact (r.reasonLine c hreason).1

theorem cString_fieldLines (fields : List Field) (rest : Bytes) :
    cString (fieldLines fields rest) = fieldLines fields (cString rest) := by
  have hlines : (0 : UInt8) ∉ fields.flatMap Field.line := by
    rw [List.mem_flatMap]
    rintro ⟨f, -, hmem⟩
    exact f.zero_notMem_line hmem
  rw [fieldLines, fieldLines, cString_front hlines, cString_front (by decide)]

/-- The string functions see the head and the front of the body. -/
theorem Response.cString_text (r : Response) :
    cString r.text = r.statusLine ++ 13 :: 10 :: fieldLines r.fields (cString r.body) := by
  have hbreak : ∀ rest, (13 : UInt8) :: 10 :: rest = lineEnd ++ rest := fun rest => rfl
  rw [Response.text, cString_front r.zero_notMem_statusLine, hbreak, cString_front (by decide),
    cString_fieldLines]
  rfl

theorem Response.status (r : Response) : estIoParseResponseStatusCode r.text = 200 := rfl

theorem fieldLines_cons (f : Field) (fields : List Field) (rest : Bytes) :
    fieldLines (f :: fields) rest =
      f.name ++ 58 :: (f.text ++ 13 :: 10 :: fieldLines fields rest) := by
  simp only [fieldLines, List.flatMap_cons, Field.line, List.append_assoc, List.cons_append]
  rfl

theorem fieldLines_head (f : Field) (fields : List Field) (rest : Bytes) :
    ∃ c, (fieldLines (f :: fields) rest).head? = some c ∧ c ∉ lineEnd := by
  cases hname : f.name with
  | nil => exact absurd hname f.nameNe
  | cons c name =>
    refine ⟨c, ?_, (f.nameLine c (by simp [hname])).2.1⟩
    rw [fieldLines_cons, hname]
    rfl

theorem dropWhile_fieldLines (f : Field) (fields : List Field) (rest : Bytes) :
    (10 :: fieldLines (f :: fields) rest).dropWhile (· ∈ lineEnd) = fieldLines (f :: fields) rest := by
  obtain ⟨c, hhead, hc⟩ := fieldLines_head f fields rest
  rw [List.dropWhile_cons_of_pos (by decide)]
  cases hlines : fieldLines (f :: fields) rest with
  | nil => rfl
  | cons d lines =>
    rw [hlines] at hhead
    cases hhead
    exact List.dropWhile_cons_of_neg (by simpa using hc)

/-- The headers end at the empty line. -/
theorem strstr_fieldLines {front : Bytes} (hfront : (13 : UInt8) ∉ front) (fields : List Field)
    (rest : Bytes) :
    strstr headerDelimiter (front ++ 13 :: 10 :: fieldLines fields rest) =
      some (headerDelimiter ++ rest) := by
  induction fields generalizing front with
  | nil => exact strstr_lastLine hfront rest
  | cons f fields ih =>
    obtain ⟨c, hhead, hc⟩ := fieldLines_head f fields rest
    have hline : (13 : UInt8) ∉ f.name ++ 58 :: f.text := by
      rw [List.mem_append, List.mem_cons, not_or, not_or]
      exact ⟨fun h => (f.nameLine 13 h).2.1 (by decide), by decide,
        fun h => (f.textLine 13 h).1 (by decide)⟩
    rw [strstr_line hfront hhead (fun h => hc (h ▸ by decide)), fieldLines_cons]
    have hnext := ih hline
    rwa [List.append_assoc] at hnext

end Head

section Parsing

theorem Field.header_name_ne (f : Field) : f.header.name ≠ [] := f.nameNe

theorem Field.parseHeader (f : Field) (rest : Bytes) :
    Http.parseHeader (f.name ++ 58 :: (f.text ++ 13 :: rest)) =
      (f.header, rest.dropWhile (· ∈ lineEnd)) :=
  parseHeader_field (fun h => (f.nameLine 58 h).1 rfl) f.zero_notMem_name
    (fun c hc => (f.textLine c hc).1) f.zero_notMem_text rest

/-- One header a line; behind the last of them the line breaks of the body are lost
together with those of the head. -/
theorem parseHeaderLoop_fields (f : Field) (fields : List Field) (rest : Bytes) {n : Nat}
    (hn : fields.length < n) :
    parseHeaderLoop (some (headerDelimiter ++ rest)) n (fieldLines (f :: fields) rest) =
      ((f :: fields).map Field.header, unbroken rest) := by
  induction fields generalizing f n with
  | nil =>
    cases n with
    | zero => omega
    | succ n =>
      have hlast : (10 :: fieldLines [] rest).dropWhile (· ∈ lineEnd) = unbroken rest := rfl
      have hbehind : behindHeaders (some (headerDelimiter ++ rest)) (unbroken rest) = true := by
        have hle := (List.dropWhile_suffix (l := rest) (· ∈ lineEnd)).length_le
        rw [behindHeaders, decide_eq_true_eq, List.length_append]
        exact Nat.lt_of_le_of_lt hle (by simp [headerDelimiter])
      rw [parseHeaderLoop, fieldLines_cons, f.parseHeader, hlast]
      dsimp only
      rw [if_neg f.header_name_ne, if_pos hbehind]
      rfl
  | cons g fields ih =>
    cases n with
    | zero => omega
    | succ n =>
      have hbehind : behindHeaders (some (headerDelimiter ++ rest)) (fieldLines (g :: fields) rest) =
          false := by
        rw [behindHeaders, decide_eq_false_iff_not, fieldLines]
        simp only [List.flatMap_cons, Field.line, headerDelimiter, lineEnd, List.length_append,
          List.length_cons, List.length_nil]
        omega
      rw [parseHeaderLoop, fieldLines_cons, f.parseHeader, dropWhile_fieldLines]
      dsimp only
      rw [if_neg f.header_name_ne, if_neg (by simp [hbehind]), ih g (Nat.lt_of_succ_lt_succ hn)]
      rfl

theorem Response.parseHttpHeaders_fields (r : Response) (hfields : r.fields ≠ []) :
    parseHttpHeaders (cString r.text) = (r.fields.map Field.header, unbroken (cString r.body)) := by
  have hle := r.fieldsLe
  have hbreak : (13 : UInt8) ∉ r.statusLine := fun h => r.statusLine_line 13 h (by decide)
  rw [r.cString_text, parseHttpHeaders, strstr_fieldLines hbreak,
    skip_line r.statusLine_line r.zero_notMem_statusLine]
  cases hcons : r.fields with
  | nil => exact absurd hcons hfields
  | cons f fields =>
    rw [hcons] at hle
    rw [dropWhile_fieldLines]
    exact parseHeaderLoop_fields f fields _ hle

theorem parseHeader_length_le (text : Bytes) : (parseHeader text).2.length ≤ text.length := by
  have hname := skipQuoted_length_le (ascii ":") (ascii " ") 0 text
  have hvalue := skipQuoted_length_le lineEnd lineEnd 0
    (skipQuoted (ascii ":") (ascii " ") 0 text).2
  simp only [parseHeader, skip]
  omega

/-- A text behind the headers is taken for one header at most. -/
theorem parseHeaderLoop_behind {delimiter text : Bytes} (h : text.length < delimiter.length)
    (n : Nat) : (parseHeaderLoop (some delimiter) n text).1.length ≤ 1 := by
  cases n with
  | zero => exact Nat.zero_le 1
  | succ n =>
    have hbehind : behindHeaders (some delimiter) (parseHeader text).2 = true :=
      decide_eq_true (Nat.lt_of_le_of_lt (parseHeader_length_le text) h)
    rw [parseHeaderLoop]
    dsimp only
    by_cases hname : (parseHeader text).1.name = []
    · rw [if_pos hname]
      exact Nat.zero_le 1
    · rw [if_neg hname, if_pos hbehind]
      exact Nat.le_refl 1

theorem Response.parseHttpHeaders_none (r : Response) (hfields : r.fields = []) :
    (parseHttpHeaders (cString r.text)).1.length ≤ 1 := by
  have hbreak : (13 : UInt8) ∉ r.statusLine := fun h => r.statusLine_line 13 h (by decide)
  have hlast : (10 :: fieldLines [] (cString r.body)).dropWhile (· ∈ lineEnd) =
    unbroken (cString r.body) := rfl
  have hlength : (unbroken (cString r.body)).length <
      (headerDelimiter ++ cString r.body).length := by
    rw [List.length_append]
    exact Nat.lt_of_le_of_lt (List.dropWhile_suffix _).length_le (by simp [headerDelimiter])
  rw [r.cString_text, parseHttpHeaders, strstr_fieldLines hbreak,
    skip_line r.statusLine_line r.zero_notMem_statusLine, hfields, hlast]
  exact parseHeaderLoop_behind hlength maxHeaders

end Parsing

section Checking

variable {op : EstOperation}

/-- A content type and a content length take two headers. -/
theorem estIoCheckHttpHdrs_short (op : EstOperation) {hdrs : List HttpHeader}
    (h : hdrs.length ≤ 1) : estIoCheckHttpHdrs hdrs op = none := by
  match hdrs with
  | [] => rfl
  | [hdr] =>
    by_cases htype : hdr.name = ascii "Content-Type"
    · have hother : ¬ hdr.name = ascii "Content-Length" := by
        rw [htype]
        decide
      simp [estIoCheckHttpHdrs, hother]
    · simp [estIoCheckHttpHdrs, htype]
  | _ :: _ :: _ => exact absurd h (by simp)

theorem filter_header (fields : List Field) (name : Bytes) :
    (fields.map Field.header).filter (fun hdr => hdr.name = name) =
      (fields.filter fun f => f.name = name).map Field.header := by
  rw [List.filter_map]
  rfl

theorem Response.typed_iff (r : Response) :
    r.Typed op ↔
      ¬ ((r.fields.map Field.header).filter (fun hdr => hdr.name = ascii "Content-Type") = [] ∨
        ¬ ((r.fields.map Field.header).filter fun hdr => hdr.name = ascii "Content-Type").all
          fun hdr => (contentType op).isPrefixOf hdr.value) := by
  rw [filter_header, Response.Typed]
  simp [Field.header, List.filter_eq_nil_iff]

theorem Response.checked_iff (r : Response) (length : Nat) :
    estIoCheckHttpHdrs (r.fields.map Field.header) op = some (length : Int) ↔
      r.Typed op ∧ r.Measures length := by
  unfold estIoCheckHttpHdrs
  dsimp only
  by_cases htyped : r.Typed op
  · rw [if_neg (r.typed_iff.mp htyped), filter_header, List.getLast?_map, Option.map_map,
      Option.map_eq_some_iff]
    exact ⟨fun h => ⟨htyped, h⟩, fun h => h.2⟩
  · rw [if_pos (not_not.mp fun h => htyped (r.typed_iff.mpr h))]
    exact ⟨nofun, fun h => absurd h.1 htyped⟩

/-- A payload that fits the buffer is handed out as it is, or there is an error. -/
theorem checkedPayload_cases (op : EstOperation) (hdrs : List HttpHeader) {payload : Bytes}
    (hfits : payload.length ≤ estCaMax) :
    (estIoCheckHttpHdrs hdrs op = some (payload.length : Int) ∧
      ∃ cert, checkedPayload hdrs op payload = .ok cert ∧ cert.getD [] = payload) ∨
    (estIoCheckHttpHdrs hdrs op ≠ some (payload.length : Int) ∧
      checkedPayload hdrs op payload = .error .httpUnsupported) := by
  unfold checkedPayload
  cases hcheck : estIoCheckHttpHdrs hdrs op with
  | none => exact Or.inr ⟨nofun, rfl⟩
  | some length =>
    dsimp only
    by_cases hsame : length = payload.length
    · apply Or.inl
      have hroom : ¬ ((estCaMax : Int) < length ∨ length ≠ payload.length) := by omega
      rw [if_neg hroom, hsame]
      refine ⟨rfl, _, rfl, ?_⟩
      by_cases hempty : payload = []
      · rw [if_pos hempty, hempty]
        rfl
      · rw [if_neg hempty]
        rfl
    · apply Or.inr
      rw [if_pos (Or.inr hsame)]
      exact ⟨fun h => hsame (Option.some.inj h), rfl⟩

theorem drop_cString (text : Bytes) :
    text.drop (cString text).length = text.dropWhile (· ≠ 0) := by
  have hsplit : cString text ++ text.dropWhile (· ≠ 0) = text := List.takeWhile_append_dropWhile
  calc text.drop (cString text).length
      = (cString text ++ text.dropWhile (· ≠ 0)).drop (cString text).length := by rw [hsplit]
    _ = text.dropWhile (· ≠ 0) := List.drop_left

/-- What the client takes for the body of a response with fields. -/
theorem Response.payload_eq (r : Response) :
    unbroken (cString r.body) ++ r.text.drop (cString r.text).length = unbroken r.body := by
  have hhead (rest : Bytes) : (r.statusLine ++ 13 :: 10 :: fieldLines r.fields rest) =
      (r.statusLine ++ 13 :: 10 :: (r.fields.flatMap Field.line ++ lineEnd)) ++ rest := by
    simp only [fieldLines, List.append_assoc, List.cons_append]
  have hbehind : r.text.drop (cString r.text).length = r.body.dropWhile (· ≠ 0) := by
    rw [r.cString_text, Response.text, hhead, hhead, List.length_append, ← List.drop_drop,
      List.drop_left]
    exact drop_cString r.body
  have hstop : (r.body.dropWhile (· ≠ 0)).dropWhile (· ∈ lineEnd) = r.body.dropWhile (· ≠ 0) := by
    have hzero := List.head?_dropWhile_not (· ≠ 0) r.body
    cases hrest : r.body.dropWhile (· ≠ 0) with
    | nil => rfl
    | cons c rest =>
      rw [hrest] at hzero
      have hc : c = 0 := by simpa using hzero
      rw [hc]
      exact List.dropWhile_cons_of_neg (by decide)
  rw [hbehind, unbroken, unbroken, ← dropWhile_append_stop hstop, cString,
    List.takeWhile_append_dropWhile]

end Checking

section Answer

variable {op : EstOperation} (ctx : ClientCtx) (r : Response)

theorem unbroken_eq_iff (body : Bytes) : unbroken body = body ↔ ∀ c ∈ body.head?, c ∉ lineEnd := by
  cases body with
  | nil => exact ⟨fun _ c hc => absurd hc (by simp), fun _ => rfl⟩
  | cons c body =>
    simp only [unbroken, List.dropWhile_eq_self_iff, List.head?_cons, Option.mem_def,
      Option.some.injEq, forall_eq']
    simp

theorem Response.body_length_le : (unbroken r.body).length ≤ r.text.length := by
  have hle := (List.dropWhile_suffix (l := r.body) (· ∈ lineEnd)).length_le
  simp only [unbroken, Response.text, fieldLines, List.length_append, List.length_cons]
  omega

/-- The body is handed out without its line breaks where the fields agree with it,
and no body is where they do not. -/
theorem Response.parsed (hkeygen : op ≠ .serverKeygen) (hcontent : noContent op = false)
    (hfits : r.text.length ≤ estCaMax) :
    ((r.Typed op ∧ r.Measures (unbroken r.body).length) ∧ ∃ cert,
      parseResponse ctx op r.text = some ({ ctx with lastHttpStatus := 200 }, .ok ⟨none, cert⟩) ∧
        cert.getD [] = unbroken r.body) ∨
    (¬ (r.Typed op ∧ r.Measures (unbroken r.body).length) ∧
      parseResponse ctx op r.text =
        some ({ ctx with lastHttpStatus := 200 }, .error .httpUnsupported)) := by
  have hresult : parseResponse ctx op r.text = some ({ ctx with lastHttpStatus := 200 },
      (checkedPayload (parseHttpHeaders (cString r.text)).1 op
        ((parseHttpHeaders (cString r.text)).2 ++ r.text.drop (cString r.text).length)).map
          fun cert => ⟨none, cert⟩) := by
    rw [parseResponse, r.status]
    dsimp only
    rw [if_neg hkeygen, if_pos rfl, if_neg (by simp [hcontent])]
  by_cases hfields : r.fields = []
  · apply Or.inr
    have hnone := estIoCheckHttpHdrs_short op (r.parseHttpHeaders_none hfields)
    rw [hresult, checkedPayload, hnone]
    refine ⟨?_, rfl⟩
    rintro ⟨⟨⟨f, hf, -⟩, -⟩, -⟩
    rw [hfields] at hf
    cases hf
  · have hpayload := (r.body_length_le).trans hfits
    rw [hresult, r.parseHttpHeaders_fields hfields, r.payload_eq, ← r.checked_iff]
    rcases checkedPayload_cases op (r.fields.map Field.header) hpayload with
      ⟨hcheck, cert, hok, hcert⟩ | ⟨hcheck, herror⟩
    · exact Or.inl ⟨hcheck, cert, by rw [hok]; rfl, hcert⟩
    · exact Or.inr ⟨hcheck, by rw [herror]; rfl⟩

/-- Where the result is known, so is whether it is what the response declares. -/
theorem Response.readAsDeclared_ok (cert : Option Bytes) :
    r.ReadAsDeclared op (some (ctx, .ok ⟨none, cert⟩)) ↔ r.Declares op ∧ cert.getD [] = r.body := by
  constructor
  · rintro ⟨hdeclared, hundeclared⟩
    by_cases h : r.Declares op
    · obtain ⟨_, _, hresult, hbody⟩ := hdeclared h
      cases hresult
      exact ⟨h, hbody⟩
    · obtain ⟨_, _, -, hresult⟩ := hundeclared h
      cases hresult
  · rintro ⟨h, hbody⟩
    exact ⟨fun _ => ⟨ctx, cert, rfl, hbody⟩, fun hnot => absurd h hnot⟩

theorem Response.readAsDeclared_error {rv : EstError} (hrv : rv ≠ .none) :
    r.ReadAsDeclared op (some (ctx, .error rv)) ↔ ¬ r.Declares op := by
  constructor
  · rintro ⟨hdeclared, -⟩ h
    obtain ⟨_, _, hresult, -⟩ := hdeclared h
    cases hresult
  · exact fun h => ⟨fun hdeclared => absurd hdeclared h, fun _ => ⟨ctx, rv, hrv, rfl⟩⟩

theorem Response.readAsDeclared_none : ¬ r.ReadAsDeclared op none := by
  rintro ⟨hdeclared, hundeclared⟩
  by_cases h : r.Declares op
  · obtain ⟨_, _, hresult, -⟩ := hdeclared h
    cases hresult
  · obtain ⟨_, _, -, hresult⟩ := hundeclared h
    cases hresult

theorem Response.parsed_iff (hkeygen : op ≠ .serverKeygen) (hcontent : noContent op = false)
    (hfits : r.text.length ≤ estCaMax) :
    r.ReadAsDeclared op (parseResponse ctx op r.text) ↔ r.Plain op := by
  rcases r.parsed ctx hkeygen hcontent hfits with ⟨htaken, cert, hresult, hcert⟩ | ⟨hrefused, hresult⟩
  · rw [hresult, r.readAsDeclared_ok, hcert, unbroken_eq_iff]
    constructor
    · rintro ⟨hdeclared, hbody⟩
      rw [(unbroken_eq_iff r.body).mpr hbody] at htaken
      exact ⟨fun _ => ⟨hbody, htaken⟩, fun h => absurd hdeclared h⟩
    · rintro ⟨hdeclared, hundeclared⟩
      have h : r.Declares op := by
        by_contra h
        exact hundeclared h htaken
      exact ⟨h, (hdeclared h).1⟩
  · rw [hresult, r.readAsDeclared_error _ (by decide)]
    constructor
    · exact fun h => ⟨fun hdeclared => absurd hdeclared h, fun _ => hrefused⟩
    · rintro ⟨hdeclared, -⟩ h
      obtain ⟨hbody, htaken⟩ := hdeclared h
      rw [(unbroken_eq_iff r.body).mpr hbody] at hrefused
      exact hrefused htaken

theorem Response.terminated_iff : r.Terminated ↔ ¬ (estCaMax ≤ r.text.length ∧ 0 ∉ r.text) := by
  have hlines : (0 : UInt8) ∉ r.fields.flatMap Field.line := by
    rw [List.mem_flatMap]
    rintro ⟨f, -, hmem⟩
    exact f.zero_notMem_line hmem
  have hzero : 0 ∈ r.text ↔ 0 ∈ r.body := by
    simp [Response.text, fieldLines, r.zero_notMem_statusLine, hlines, lineEnd]
  rw [Response.Terminated, hzero, not_and_or, not_le, not_not]

theorem Delivery.raw {r : Response} (d : Delivery r) : estIoReadRaw [] d.reads = .ok r.text := by
  have hsize : ([] : Bytes).length + d.chunks.flatten.length ≤ estCaMax := by
    rw [d.whole, List.length_nil, Nat.zero_add]
    exact d.fits
  rw [Delivery.reads, estIoReadRaw_chunks d.chunksNe [] hsize, List.nil_append, d.whole]

theorem Delivery.terminated {r : Response} (d : Delivery r) (h : r.Terminated) :
    answerInBuffer ctx op d.reads = parseResponse ctx op r.text := by
  have hcons : r.text ≠ [] := by simp [Response.text]
  rw [answerInBuffer, estIoGetResponseInternal, d.raw]
  dsimp only
  rw [if_neg (r.terminated_iff.mp h)]
  cases htext : r.text with
  | nil => exact absurd htext hcons
  | cons c rest => rfl

theorem Delivery.unterminated {r : Response} (d : Delivery r) (h : ¬ r.Terminated) :
    answerInBuffer ctx op d.reads = none := by
  rw [answerInBuffer, d.raw]
  exact if_pos (not_not.mp fun hnot => h (r.terminated_iff.mpr hnot))

/-- The client reads a response as it declares itself exactly where a zero follows
the text and the fields and the body are written plainly; an answer that has no
content to check must be empty. -/
theorem response_read_iff {r : Response} (d : Delivery r) (hkeygen : op ≠ .serverKeygen) :
    r.ReadAsDeclared op (answerInBuffer ctx op d.reads) ↔
      r.Terminated ∧
        if noContent op = true then r.Declares op ∧ r.body = [] else r.Plain op := by
  by_cases hzero : r.Terminated
  · rw [d.terminated ctx hzero, and_iff_right hzero]
    by_cases hcontent : noContent op = true
    · have hresult : parseResponse ctx op r.text =
          some ({ ctx with lastHttpStatus := 200 }, .ok ⟨none, none⟩) := by
        rw [parseResponse, r.status]
        dsimp only
        rw [if_neg hkeygen, if_pos rfl, if_pos hcontent]
      rw [if_pos hcontent, hresult, r.readAsDeclared_ok]
      exact and_congr_right fun _ => eq_comm
    · rw [if_neg hcontent]
      exact r.parsed_iff ctx hkeygen (Bool.eq_false_iff.mpr hcontent) d.fits
  · rw [d.unterminated ctx hzero]
    exact ⟨fun h => absurd h r.readAsDeclared_none, fun h => absurd h.1 hzero⟩

end Answer

section Certificates

def typeField : Field where
  name := ascii "Content-Type"
  text := ascii " application/pkcs7-mime"
  nameNe := by decide
  nameLine := by decide
  textLine := by decide

def lengthField : Field where
  name := ascii "Content-Length"
  text := ascii " 4"
  nameNe := by decide
  nameLine := by decide
  textLine := by decide

def fourBytes (body : Bytes) : Response where
  reason := ascii "OK"
  fields := [typeField, lengthField]
  body := body
  reasonLine := by decide
  fieldsLe := by decide

theorem fourBytes_declares {body : Bytes} (h : body.length = 4) :
    (fourBytes body).Declares .cacerts := by
  have hlength : lengthField.Gives 4 := by
    unfold Field.Gives
    decide
  refine ⟨⟨typeField, by simp [fourBytes], ?_, ?_⟩, ⟨lengthField, by simp [fourBytes], ?_⟩, ?_⟩
  · unfold Field.IsNamed
    decide
  · unfold Field.HasType
    decide
  · unfold Field.IsNamed
    decide
  · have hother : ¬ typeField.IsNamed "Content-Length" := by
      unfold Field.IsNamed
      decide
    simp [fourBytes, hother, hlength, h]

/-- A response in one piece. -/
def inOnePiece (r : Response) (hfits : r.text.length ≤ estCaMax) : Delivery r where
  chunks := [r.text]
  chunksNe := by simp [Response.text]
  whole := by simp
  fits := hfits

def wrapped : Delivery (fourBytes (ascii "MIIB")) := inOnePiece _ (by decide)

theorem response_read_wrapped :
    (fourBytes (ascii "MIIB")).ReadAsDeclared .cacerts
      (answerInBuffer hostCtx .cacerts wrapped.reads) := by
  have hdeclares : (fourBytes (ascii "MIIB")).Declares .cacerts := fourBytes_declares rfl
  refine (response_read_iff hostCtx wrapped (by decide)).mpr ⟨Or.inl (by decide), ?_⟩
  have hother : lengthField.name ≠ ascii "Content-Type" := by decide
  have htype : contentType .cacerts <+: typeField.text.dropWhile (· = 32) := by decide
  have htyped : (fourBytes (ascii "MIIB")).Typed .cacerts :=
    ⟨⟨typeField, by simp [fourBytes], by decide⟩, by simp [fourBytes, hother, htype]⟩
  have hmeasures : (fourBytes (ascii "MIIB")).Measures 4 := ⟨lengthField, rfl, by decide⟩
  have hfront : ∀ c ∈ (fourBytes (ascii "MIIB")).body.head?, c ∉ lineEnd := by
    intro c hc
    cases hc
    decide
  rw [if_neg (by decide)]
  exact ⟨fun _ => ⟨hfront, htyped, hmeasures⟩, fun h => absurd hdeclares h⟩

def broken : Delivery (fourBytes (ascii "\nMII")) := inOnePiece _ (by decide)

/-- A body that begins with a line break is refused, although it is declared. -/
theorem line_break_refused :
    (fourBytes (ascii "\nMII")).Declares .cacerts ∧
      ¬ (fourBytes (ascii "\nMII")).ReadAsDeclared .cacerts
        (answerInBuffer hostCtx .cacerts broken.reads) := by
  have hdeclares : (fourBytes (ascii "\nMII")).Declares .cacerts := fourBytes_declares rfl
  refine ⟨hdeclares, fun h => ?_⟩
  have hresult : answerInBuffer hostCtx .cacerts broken.reads =
      some ({ hostCtx with lastHttpStatus := 200 }, .error .httpUnsupported) := by
    rw [broken.terminated hostCtx (Or.inl (by decide))]
    rfl
  rw [hresult, Response.readAsDeclared_error _ _ (by decide)] at h
  exact h hdeclares

end Certificates

end LibEst.Client.ResponseText
