import LibEst.Client.PathSegment
import LibEst.Server.Framing
import LibEst.Wire.Message

/-! Requests as the server reads them off a connection. A request that is written line by
line is found in the stream as it was written, whatever pieces the stream comes in and
whatever follows the request. -/
namespace LibEst.Wire.Requests

open LibEst.Basic LibEst.Base64 LibEst.Lib.ByteString LibEst.Lib.Loop LibEst.SafeStr
open LibEst.Server.AuthHeader LibEst.Server.HttpMessage LibEst.Server.Framing
open LibEst.Client.Http LibEst.Client.HeaderLines LibEst.Client.ResponseText
open LibEst.Client.PathSegment (skip_word)
open LibEst.Wire.Message

section Heads

/-- A byte that both ends let through in a line. -/
def HeadByte (c : UInt8) : Prop := malformed c = false ∧ LineByte c

instance (c : UInt8) : Decidable (HeadByte c) := inferInstanceAs (Decidable (_ ∧ _))

theorem headByte_printable {c : UInt8} (hlow : 32 ≤ c) (hhigh : c ≤ 126) : HeadByte c := by
  have hne {d : UInt8} (hd : d < 32) : c ≠ d := by
    rintro rfl
    exact absurd hd (UInt8.not_lt.mpr hlow)
  refine ⟨by simp [malformed, hlow, hhigh], ?_, hne (by decide)⟩
  intro hend
  rcases List.mem_cons.mp hend with hcr | hlf
  · exact hne (by decide) hcr
  · exact hne (by decide) (List.mem_singleton.mp hlf)

theorem headByte_decimal (n : Nat) : ∀ c ∈ decimal n, HeadByte c := by
  intro c hc
  have hdigit := isdigit_decimal n c hc
  rw [isdigit, decide_eq_true_eq] at hdigit
  exact headByte_printable (UInt8.le_trans (by decide) hdigit.1) (UInt8.le_trans hdigit.2 (by decide))

theorem field_sound {name : String} {value : Bytes} (hname : IsName name)
    (hnamed : ∀ c ∈ ascii name, malformed c = false) (hvalue : ∀ c ∈ value, HeadByte c) :
    ∀ c ∈ (field name value hname fun c hc => (hvalue c hc).2).name ++
      58 :: (field name value hname fun c hc => (hvalue c hc).2).text, malformed c = false := by
  intro c hc
  simp only [field, List.mem_append, List.mem_cons] at hc
  rcases hc with h | rfl | rfl | h
  · exact hnamed c h
  · decide
  · decide
  · exact (hvalue c h).1

/-- The head of a request that a server takes. -/
structure Head where
  method : Bytes
  target : Bytes
  fields : List Field
  methodKnown : method = ascii "GET" ∨ method = ascii "POST"
  targetRooted : target.head? = some 47
  targetWord : ∀ c ∈ target, malformed c = false ∧ LineByte c ∧ c ≠ 32
  fieldsNe : fields ≠ []
  fieldsLe : fields.length ≤ maxHttpHeaders
  fieldsSound : ∀ f ∈ fields, ∀ c ∈ f.name ++ 58 :: f.text, malformed c = false

variable (h : Head)

def Head.line : Bytes := h.method ++ 32 :: (h.target ++ 32 :: ascii "HTTP/1.1")

def Head.text (body : Bytes) : Bytes := message h.line h.fields body

/-- The length of the header with its empty line. -/
def Head.length : Nat := (h.text []).length

def Head.info : RequestInfo where
  requestMethod := h.method
  uri := h.target
  httpVersion := ascii "1.1"
  httpHeaders := h.fields.map Field.header

theorem Head.text_eq (body : Bytes) : h.text body = h.text [] ++ body := by
  simp only [text, message, fieldLines, List.append_assoc, List.cons_append, List.append_nil]

theorem method_bytes {method : Bytes} (h : method = ascii "GET" ∨ method = ascii "POST") :
    ∀ c ∈ method, malformed c = false ∧ LineByte c ∧ c ≠ 32 := by
  rcases h with rfl | rfl
  · exact ascii_forall (by decide)
  · exact ascii_forall (by decide)

theorem Head.line_bytes : ∀ c ∈ h.line, malformed c = false ∧ LineByte c := by
  have hversion : ∀ c ∈ ascii "HTTP/1.1", malformed c = false ∧ LineByte c := ascii_forall (by decide)
  have hspace : malformed 32 = false ∧ LineByte 32 := by decide
  intro c hc
  simp only [line, List.mem_append, List.mem_cons] at hc
  rcases hc with hmethod | rfl | htarget | rfl | hrest
  · have hbytes := method_bytes h.methodKnown c hmethod
    exact ⟨hbytes.1, hbytes.2.1⟩
  · exact hspace
  · have hbytes := h.targetWord c htarget
    exact ⟨hbytes.1, hbytes.2.1⟩
  · exact hspace
  · exact hversion c hrest

end Heads

section Scan

theorem requestLenFrom_skip {line rest : Bytes} (h : ∀ c ∈ line, malformed c = false ∧ c ≠ 10)
    (hrest : rest ≠ []) (i : Nat) :
    requestLenFrom i (line ++ rest) = requestLenFrom (i + line.length) rest := by
  induction line generalizing i with
  | nil => rfl
  | cons c line ih =>
    obtain ⟨next, more, hnext⟩ := List.exists_cons_of_ne_nil
      (List.append_ne_nil_of_right_ne_nil line hrest)
    have hc := h c List.mem_cons_self
    have hlater := ih (fun d hd => h d (List.mem_cons_of_mem c hd)) (i + 1)
    rw [hnext] at hlater
    rw [List.cons_append, hnext, requestLenFrom, if_neg (by rw [hc.1]; exact Bool.false_ne_true),
      if_neg (fun hlf => hc.2 hlf.1), if_neg (fun hcrlf => hc.2 hcrlf.1), hlater, List.length_cons]
    congr 1
    omega

/-- From the end of a line on, the header is as long as its lines are. -/
theorem requestLenFrom_lines {fields : List Field}
    (h : ∀ f ∈ fields, ∀ c ∈ f.name ++ 58 :: f.text, malformed c = false) (i : Nat) (rest : Bytes) :
    requestLenFrom i (13 :: 10 :: fieldLines fields rest) =
      (i : Int) + 2 + (fieldLines fields []).length := by
  have hbreak : ∀ i next more, requestLenFrom i (13 :: 10 :: next :: more) =
      requestLenFrom (i + 1) (10 :: next :: more) := by
    intro i next more
    rw [requestLenFrom, if_neg (by decide), if_neg (fun hlf => absurd hlf.1 (by decide)),
      if_neg (fun hlf => absurd hlf.1 (by decide))]
  induction fields generalizing i with
  | nil =>
    show requestLenFrom i (13 :: 10 :: 13 :: 10 :: rest) = _
    rw [hbreak, requestLenFrom, if_neg (by decide), if_neg (by decide), if_pos ⟨rfl, rfl, rfl⟩]
    show ((i + 1 : Nat) : Int) + 3 = i + 2 + 2
    omega
  | cons f fields ih =>
    obtain ⟨c, hhead, hc⟩ := fieldLines_head f fields rest
    have hline : ∀ d ∈ f.name ++ 58 :: f.text, malformed d = false ∧ d ≠ 10 := by
      intro d hd
      refine ⟨h f List.mem_cons_self d hd, ?_⟩
      rintro rfl
      rcases List.mem_append.mp hd with hname | htext
      · exact (f.nameLine 10 hname).2.1 (by decide)
      · rcases List.mem_cons.mp htext with hcolon | hvalue
        · exact absurd hcolon (by decide)
        · exact (f.textLine 10 hvalue).1 (by decide)
    have hlater := ih (fun g hg => h g (List.mem_cons_of_mem f hg))
      (i + 2 + (f.name ++ 58 :: f.text).length)
    have hlines : fieldLines (f :: fields) rest =
        (f.name ++ 58 :: f.text) ++ 13 :: 10 :: fieldLines fields rest := by
      rw [fieldLines_cons, List.append_assoc, List.cons_append]
    cases hfirst : fieldLines (f :: fields) rest with
    | nil =>
      rw [hfirst] at hhead
      cases hhead
    | cons next more =>
      rw [hfirst] at hhead
      cases hhead
      have hlf : ¬ (c = 10 ∨ c = 13) := by
        rintro (rfl | rfl)
        · exact hc (by decide)
        · exact hc (by decide)
      rw [hbreak, requestLenFrom, if_neg (by decide), if_neg (fun hand => hlf (Or.inl hand.2)),
        if_neg (fun hand => hlf (Or.inr hand.2.1)), ← hfirst, hlines,
        requestLenFrom_skip hline (List.cons_ne_nil _ _), hlater]
      rw [fieldLines_cons]
      simp only [List.length_append, List.length_cons]
      push_cast
      omega

variable (h : Head)

theorem Head.requestLen (body : Bytes) : getRequestLen (h.text body) = h.length := by
  have hline : ∀ c ∈ h.line, malformed c = false ∧ c ≠ 10 := by
    intro c hc
    refine ⟨(h.line_bytes c hc).1, ?_⟩
    rintro rfl
    exact (h.line_bytes 10 hc).2.1 (by decide)
  rw [getRequestLen, text, message, requestLenFrom_skip hline (List.cons_ne_nil _ _),
    requestLenFrom_lines h.fieldsSound, length, text, message]
  simp only [List.length_append, List.length_cons]
  push_cast
  omega

theorem requestLenFrom_nonneg {buf : Bytes} (h : ∀ c ∈ buf, malformed c = false) (i : Nat) :
    0 ≤ requestLenFrom i buf := by
  induction buf generalizing i with
  | nil => exact Int.le_refl 0
  | cons c tail ih =>
    cases tail with
    | nil => exact Int.le_refl 0
    | cons next rest =>
      have hlater := ih (fun d hd => h d (List.mem_cons_of_mem c hd)) (i + 1)
      rw [requestLenFrom, if_neg (by rw [h c List.mem_cons_self]; exact Bool.false_ne_true)]
      split
      · omega
      · split
        · omega
        · exact hlater

theorem Head.text_bytes : ∀ c ∈ h.text [], malformed c = false := by
  have hbreak : malformed 13 = false ∧ malformed 10 = false := by decide
  intro c hc
  simp only [text, message, fieldLines, lineEnd, List.mem_append, List.mem_cons, List.mem_flatMap,
    List.not_mem_nil, or_false] at hc
  rcases hc with hline | rfl | rfl | ⟨f, hf, hfield⟩ | rfl | rfl
  · exact (h.line_bytes c hline).1
  · exact hbreak.1
  · exact hbreak.2
  · have hsplit : f.line = (f.name ++ 58 :: f.text) ++ [13, 10] := by
      simp only [Field.line, lineEnd, List.append_assoc, List.cons_append]
    rw [hsplit] at hfield
    rcases List.mem_append.mp hfield with htext | hend
    · exact h.fieldsSound f hf c htext
    · rcases List.mem_cons.mp hend with rfl | hlast
      · exact hbreak.1
      · rw [List.mem_singleton.mp hlast]
        exact hbreak.2
  · exact hbreak.1
  · exact hbreak.2

/-- A part of a request that does not have the whole header is taken for the beginning of
one. -/
theorem Head.requestLen_prefix {body buf : Bytes} (hbuf : buf <+: h.text body) :
    getRequestLen buf = if h.length ≤ buf.length then (h.length : Int) else 0 := by
  rw [h.text_eq] at hbuf
  split
  · rename_i hlong
    obtain ⟨more, rfl⟩ := List.prefix_of_prefix_length_le (List.prefix_append _ _) hbuf hlong
    rw [← h.text_eq, h.requestLen]
  · rename_i hshort
    have hhead : buf <+: h.text [] :=
      List.prefix_of_prefix_length_le hbuf (List.prefix_append _ _) (by rw [← length]; omega)
    have hnonneg : 0 ≤ getRequestLen buf :=
      requestLenFrom_nonneg (fun c hc => h.text_bytes c (hhead.subset hc)) 0
    by_contra hne
    obtain ⟨more, hmore⟩ := hhead
    have hwhole := getRequestLen_append (show 0 < getRequestLen buf by omega) more
    have hle := getRequestLen_le buf
    rw [hmore, h.requestLen] at hwhole
    omega

end Scan

section Parse

theorem parseFields_nil (limit : Nat) : parseFields limit [] = [] := by
  cases limit with
  | zero => rfl
  | succ limit =>
    rw [parseFields]
    exact if_pos rfl

theorem dropWhile_lines (f : Field) (fields : List Field) (rest : Bytes) :
    (10 :: ((f :: fields).flatMap Field.line ++ rest)).dropWhile (· ∈ lineEnd) =
      (f :: fields).flatMap Field.line ++ rest := by
  rw [List.dropWhile_cons_of_pos (by decide)]
  cases hname : f.name with
  | nil => exact absurd hname f.nameNe
  | cons c name =>
    have hc := (f.nameLine c (by rw [hname]; exact List.mem_cons_self)).2.1
    simp only [List.flatMap_cons, Field.line, hname, List.cons_append]
    exact List.dropWhile_cons_of_neg (by rwa [decide_eq_true_eq])

/-- The fields of a header whose last byte has given way to a zero. -/
theorem parseFields_lines (f : Field) (fields : List Field) {limit : Nat}
    (h : fields.length < limit) :
    parseFields limit ((f :: fields).flatMap Field.line ++ [13]) = (f :: fields).map Field.header := by
  induction fields generalizing f limit with
  | nil =>
    cases limit with
    | zero => exact absurd h (Nat.not_lt_zero _)
    | succ limit =>
      have hline : [f].flatMap Field.line ++ [13] = f.name ++ 58 :: (f.text ++ 13 :: [10, 13]) := by
        simp only [List.flatMap_cons, List.flatMap_nil, Field.line, lineEnd, List.append_assoc,
          List.cons_append, List.nil_append]
      have hend : ([10, 13] : Bytes).dropWhile (· ∈ lineEnd) = [] := by decide
      rw [hline, parseFields, f.parseHeader, hend]
      dsimp only
      rw [if_neg f.header_name_ne, parseFields_nil]
      rfl
  | cons g fields ih =>
    cases limit with
    | zero => exact absurd h (Nat.not_lt_zero _)
    | succ limit =>
      have hline : (f :: g :: fields).flatMap Field.line ++ [13] =
          f.name ++ 58 :: (f.text ++ 13 :: 10 :: ((g :: fields).flatMap Field.line ++ [13])) := by
        simp only [List.flatMap_cons, Field.line, lineEnd, List.append_assoc, List.cons_append,
          List.nil_append]
      rw [hline, parseFields, f.parseHeader, dropWhile_lines]
      dsimp only
      rw [if_neg f.header_name_ne, ih g (Nat.lt_of_succ_lt_succ h)]
      rfl

variable (h : Head)

theorem Head.skip_method (rest : Bytes) :
    skip (ascii " ") (h.method ++ 32 :: (h.target ++ rest)) = (h.method, h.target ++ rest) := by
  have hmethod := method_bytes h.methodKnown
  have hrooted := h.targetRooted
  cases htarget : h.target with
  | nil =>
    rw [htarget] at hrooted
    cases hrooted
  | cons c target =>
    have hc := (h.targetWord c (by rw [htarget]; exact List.mem_cons_self)).2.2
    exact skip_word (fun hmem => (hmethod 32 hmem).2.2 rfl) (fun hmem => (hmethod 0 hmem).2.1.2 rfl)
      hc (target ++ rest)

theorem Head.skip_target (rest : Bytes) :
    skip (ascii " ") (h.target ++ 32 :: (ascii "HTTP/1.1" ++ rest)) =
      (h.target, ascii "HTTP/1.1" ++ rest) := by
  have hversion : ascii "HTTP/1.1" = 72 :: ascii "TTP/1.1" := by
    rw [ascii_ofList, ascii_ofList]
    rfl
  rw [hversion]
  exact skip_word (fun hmem => (h.targetWord 32 hmem).2.2 rfl)
    (fun hmem => (h.targetWord 0 hmem).2.1.2 rfl) (show (72 : UInt8) ≠ 32 by decide)
    (ascii "TTP/1.1" ++ rest)

theorem dropWhile_method {method : Bytes} (h : method = ascii "GET" ∨ method = ascii "POST")
    (rest : Bytes) : (method ++ rest).dropWhile isspace = method ++ rest := by
  rcases h with rfl | rfl <;> rw [ascii_ofList] <;> exact List.dropWhile_cons_of_neg (by decide)

/-- The server reads the header as it was written. -/
theorem Head.parse_text : parseHttpMessage maxHttpHeaders (h.text []) =
    { h.info with httpVersion := ascii "HTTP/1.1" } := by
  have hlast : (h.text []).dropLast = h.method ++ 32 :: (h.target ++ 32 :: (ascii "HTTP/1.1" ++
      13 :: 10 :: (h.fields.flatMap Field.line ++ [13]))) := by
    have hsplit : h.text [] = (h.method ++ 32 :: (h.target ++ 32 :: (ascii "HTTP/1.1" ++
        13 :: 10 :: (h.fields.flatMap Field.line ++ [13])))) ++ [10] := by
      simp only [text, line, message, fieldLines, lineEnd, List.append_assoc, List.cons_append,
        List.nil_append, List.append_nil]
    rw [hsplit, List.dropLast_concat]
  have hversion : ∀ c ∈ ascii "HTTP/1.1", LineByte c := ascii_forall (by decide)
  have hlines : (10 :: (h.fields.flatMap Field.line ++ [13])).dropWhile (· ∈ lineEnd) =
      h.fields.flatMap Field.line ++ [13] ∧
      parseFields maxHttpHeaders (h.fields.flatMap Field.line ++ [13]) = h.fields.map Field.header := by
    have hle := h.fieldsLe
    obtain ⟨f, fields, hfields⟩ := List.exists_cons_of_ne_nil h.fieldsNe
    rw [hfields] at hle ⊢
    exact ⟨dropWhile_lines f fields [13], parseFields_lines f fields hle⟩
  rw [parseHttpMessage, hlast, dropWhile_method h.methodKnown, h.skip_method]
  dsimp only
  rw [h.skip_target]
  dsimp only
  rw [skip_line (fun c hc => (hversion c hc).1) (fun hmem => (hversion 0 hmem).2 rfl), hlines.1]
  dsimp only
  rw [hlines.2]
  rfl

/-- What follows the header does not matter. -/
theorem Head.parsed (body : Bytes) : parseHttpRequest (h.text body) = some h.info := by
  have hwhole : (h.text body).take h.length = h.text [] := by
    rw [h.text_eq, length, List.take_left]
  have hpos : (0 : Int) < h.length := by
    rw [length, text, message_length]
    omega
  have hmethod : isValidHttpMethod h.method = true := by
    rw [isValidHttpMethod, decide_eq_true_eq]
    rcases h.methodKnown with hget | hpost
    · rw [hget]
      exact Or.inl (List.prefix_refl _)
    · rw [hpost]
      exact Or.inr (List.prefix_refl _)
  have hversion : ascii "HTTP/1.1" = ascii "HTTP/" ++ ascii "1.1" := by
    rw [ascii_ofList, ascii_ofList, ascii_ofList]
    rfl
  have hslash : (ascii "HTTP/").length = 5 := by
    rw [ascii_ofList]
    rfl
  rw [parseHttpRequest, h.requestLen, Int.toNat_natCast, hwhole, h.parse_text]
  dsimp only
  rw [if_pos, hversion]
  · rw [← hslash, List.drop_left]
    rfl
  · rw [hversion]
    exact ⟨hpos, hmethod, List.prefix_append _ _⟩

end Parse

section Fields

variable {front hdrs : List HttpHeader} {name : String}

theorem getHeader_skip (h : ∀ hdr ∈ front, hdr.name.map tolower ≠ (ascii name).map tolower) :
    getHeader (front ++ hdrs) name = getHeader hdrs name := by
  have hnone : front.find? (fun hdr => hdr.name.map tolower = (ascii name).map tolower) = none := by
    rw [List.find?_eq_none]
    intro hdr hmem
    rw [decide_eq_true_eq]
    exact h hdr hmem
  rw [getHeader, getHeader, List.find?_append, hnone, Option.none_or]

theorem getHeader_first {hdr : HttpHeader} (h : hdr.name = ascii name) :
    getHeader (hdr :: hdrs) name = some hdr.value := by
  rw [getHeader, List.find?_cons_of_pos (by rw [decide_eq_true_eq, h])]
  rfl

theorem name_ne {chars other : List Char}
    (h : (chars.map fun c => UInt8.ofNat c.toNat).map tolower ≠
      (other.map fun c => UInt8.ofNat c.toNat).map tolower) :
    (ascii (String.ofList chars)).map tolower ≠ (ascii (String.ofList other)).map tolower := by
  rw [ascii_ofList, ascii_ofList]
  exact h

end Fields

section Supply

def brings : Cut → Bool
  | .data _ => true
  | .wantRead | .failed | .timedOut | .stopped => false

def goesOn : Cut → Bool
  | .data _ | .wantRead => true
  | .failed | .timedOut | .stopped => false

/-- Reads that do not fail, and bring so many bytes even where each brings only one. -/
def Supplies (cuts : List Cut) (n : Nat) : Prop :=
  (∀ cut ∈ cuts, goesOn cut = true) ∧ n ≤ cuts.countP brings

instance (cuts : List Cut) (n : Nat) : Decidable (Supplies cuts n) :=
  inferInstanceAs (Decidable (_ ∧ _))

/-- Bytes that come one by one. -/
theorem supplies_replicate (n : Nat) : Supplies (List.replicate n (.data 0)) n := by
  constructor
  · intro cut hcut
    rw [List.eq_of_mem_replicate hcut]
    rfl
  · rw [List.countP_replicate]
    exact Nat.le_refl n

/-- A read that is asked for something goes well, and the later ones bring what is left. -/
theorem supplies_pull {cut : Cut} {cuts : List Cut} {bytes : Bytes} {len : Nat} (hlen : 0 < len)
    (hbytes : bytes ≠ []) (h : Supplies (cut :: cuts) bytes.length) :
    ∃ got, pull len bytes cut = some got ∧ Supplies cuts (bytes.drop got.length).length := by
  obtain ⟨hgood, hcount⟩ := h
  have hlater : ∀ c ∈ cuts, goesOn c = true := fun c hc => hgood c (List.mem_cons_of_mem cut hc)
  cases cut with
  | data more =>
    have hpos := List.length_pos_iff.mpr hbytes
    rw [List.countP_cons_of_pos rfl] at hcount
    refine ⟨_, if_neg hbytes, hlater, ?_⟩
    rw [List.length_drop, List.length_take]
    omega
  | wantRead =>
    rw [List.countP_cons_of_neg (by decide)] at hcount
    exact ⟨[], rfl, hlater, hcount⟩
  | failed | timedOut | stopped => exact absurd (hgood _ List.mem_cons_self) (by decide)

theorem fetch_supplied {len : Nat} {bytes : Bytes} {cuts : List Cut} (hlen : len ≤ bytes.length)
    (h : Supplies cuts bytes.length) :
    arrives len bytes cuts = true ∧ (fetch len bytes cuts).mustClose = false ∧
      (fetch len bytes cuts).stopFlag = false ∧
      Supplies (fetch len bytes cuts).cuts (fetch len bytes cuts).bytes.length := by
  induction cuts generalizing len bytes with
  | nil =>
    have hnone : bytes.length ≤ 0 := h.2
    refine ⟨?_, rfl, rfl, h⟩
    rw [arrives, decide_eq_true_eq]
    omega
  | cons cut cuts ih =>
    rw [arrives, fetch]
    by_cases hzero : len = 0
    · rw [if_pos hzero]
      exact ⟨by rw [Bool.or_eq_true, decide_eq_true_eq]; exact Or.inl hzero, rfl, rfl, h⟩
    · have hbytes : bytes ≠ [] := by
        rintro rfl
        exact hzero (Nat.le_zero.mp hlen)
      obtain ⟨got, hgot, hlater⟩ := supplies_pull (Nat.pos_of_ne_zero hzero) hbytes h
      obtain ⟨harrives, hrest⟩ := @ih (len - got.length) (bytes.drop got.length)
        (by rw [List.length_drop]; omega) hlater
      rw [if_neg hzero, hgot]
      dsimp only
      exact ⟨by rw [harrives, Bool.or_true], hrest⟩

variable (h : Head)

/-- The reads go on until the whole header is in the buffer. -/
theorem Head.readRequest_supplied {body data bytes : Bytes} {cuts : List Cut}
    (hrest : data ++ bytes = h.text body) (hsize : h.length ≤ maxRequestSize)
    (hcuts : Supplies cuts bytes.length) :
    ∃ r, readRequest data bytes cuts = some r ∧ h.length ≤ r.data.length ∧
      Supplies r.cuts r.bytes.length := by
  have hwhole : h.length ≤ data.length + bytes.length := by
    rw [← List.length_append, hrest, h.text_eq, List.length_append, length]
    exact Nat.le_add_right _ _
  have hpos : 0 < h.length := by
    rw [length, text, message_length]
    omega
  have hscan := @Head.requestLen_prefix h body data ⟨bytes, hrest⟩
  -- the buffer is read into just as long as the header is not whole
  have hturn : data.length < maxRequestSize ∧ getRequestLen data = 0 ↔ data.length < h.length := by
    rw [hscan]
    split <;> omega
  induction cuts generalizing data bytes with
  | nil =>
    have hnone : bytes.length ≤ 0 := hcuts.2
    rw [readRequest, if_neg (fun hmore => absurd (hturn.mp hmore) (by omega))]
    refine ⟨_, rfl, ?_, hcuts⟩
    show h.length ≤ data.length
    omega
  | cons cut cuts ih =>
    rw [readRequest]
    by_cases hshort : data.length < h.length
    · have hbytes : bytes ≠ [] := by
        rintro rfl
        rw [List.length_nil] at hwhole
        omega
      obtain ⟨got, hgot, hlater⟩ := supplies_pull
        (show 0 < maxRequestSize - data.length by omega) hbytes hcuts
      have hnext : (data ++ got) ++ bytes.drop got.length = h.text body := by
        rw [List.append_assoc, (pull_split hgot).1, hrest]
      rw [if_pos (hturn.mpr hshort), hgot]
      have hwhole' : h.length ≤ (data ++ got).length + (bytes.drop got.length).length := by
        rw [← List.length_append, hnext, h.text_eq, List.length_append, length]
        exact Nat.le_add_right _ _
      have hscan' := @Head.requestLen_prefix h body (data ++ got) ⟨bytes.drop got.length, hnext⟩
      apply ih hnext hlater hwhole' hscan'
      rw [hscan']
      split <;> omega
    · rw [if_neg (fun hmore => hshort (hturn.mp hmore))]
      exact ⟨_, rfl, Nat.le_of_not_lt hshort, hcuts⟩

end Supply

section Rounds

variable (h : Head)

/-- The length of the body as the header has it; a request for something need not have one. -/
def Head.Declares (n : Nat) : Prop :=
  getHeader h.info.httpHeaders "Content-Length" = some (decimal n) ∨
    getHeader h.info.httpHeaders "Content-Length" = none ∧ h.method = ascii "GET" ∧ n = 0

/-- The connection stays open behind the request. -/
def Head.keeps (round : Round) : Bool :=
  !round.stop && shouldKeepAlive h.info false round.statusCode

/-- A body that the server takes. -/
structure Bodied (h : Head) (body : Bytes) : Prop where
  declared : h.Declares body.length
  short : (body.length : Int) ≤ estMaxContentLen
  head : h.length ≤ maxRequestSize

variable {h} {body tail : Bytes}

theorem Bodied.contentLength (hbody : Bodied h body) : contentLength h.info = body.length := by
  have hshort := hbody.short
  unfold estMaxContentLen at hshort
  rw [LibEst.Server.Framing.contentLength]
  rcases hbody.declared with hfound | ⟨hfound, hget, hnone⟩
  · rw [hfound]
    exact strtol_decimal (by omega)
  · have hmethod : ¬ (isMethod h.info.requestMethod "POST" ∨ isMethod h.info.requestMethod "PUT") := by
      rw [show h.info.requestMethod = ascii "GET" from hget]
      decide
    rw [hfound, hnone]
    exact if_neg hmethod

theorem mgRead_supplied {r : Received} {requestLen n : Nat}
    (hn : n - (r.data.length - requestLen) ≤ r.bytes.length) (hcuts : Supplies r.cuts r.bytes.length) :
    (mgRead r requestLen n n).mustClose = false ∧ (mgRead r requestLen n n).stopFlag = false ∧
      Supplies (mgRead r requestLen n n).cuts (mgRead r requestLen n n).bytes.length := by
  have hbuffered : ((r.data.drop requestLen).take n).length = min n (r.data.length - requestLen) := by
    rw [List.length_take, List.length_drop]
  rw [mgRead]
  split
  · simp only [Nat.min_self, hbuffered]
    exact (fetch_supplied (by omega) hcuts).2
  · exact ⟨rfl, rfl, hcuts⟩

/-- The body is read as far as the buffer does not have it, and the rest is left. -/
theorem Bodied.served (hbody : Bodied h body) (round : Round) {r : Received}
    (hrest : r.data ++ r.bytes = h.text (body ++ tail)) (hlong : h.length ≤ r.data.length)
    (hcuts : Supplies r.cuts r.bytes.length) :
    ∃ bytes cuts, estMgHandler round r h.length body.length h.info =
        { frame := some ⟨h.info, body⟩, contentLen := body.length, statusCode := round.statusCode
          mustClose := false, stopFlag := round.stop, bytes := bytes, cuts := cuts } ∧
      discard r.data h.length body.length ++ bytes = tail ∧ Supplies cuts bytes.length := by
  have hdrop : (r.data ++ r.bytes).drop h.length = body ++ tail := by
    rw [hrest, h.text_eq, Head.length, List.drop_left]
  have hlength : r.data.length + r.bytes.length = h.length + (body.length + tail.length) := by
    rw [← List.length_append, hrest, h.text_eq, List.length_append, List.length_append, Head.length]
  have hfetch := @fetch_supplied (body.length - (r.data.length - h.length)) r.bytes r.cuts
    (by omega) hcuts
  obtain ⟨hgot, hfull, hleft⟩ := @mgRead_split r h.length body.length hlong hfetch.1
  have hbehind : (r.data ++ r.bytes).drop (h.length + body.length) = tail := by
    rw [← List.drop_drop, hdrop, List.drop_left]
  rw [hdrop, List.take_left] at hgot
  rw [hbehind] at hleft
  rcases hbody.declared with hfound | ⟨hfound, -, hnone⟩
  · have hshort := hbody.short
    unfold estMaxContentLen at hshort
    have hatoi : (atoi (decimal body.length)).toNat = body.length := by
      rw [atoi_decimal (by omega), Int.toNat_natCast]
    obtain ⟨hopen, hstop, hsupplies⟩ := @mgRead_supplied r h.length body.length (by omega) hcuts
    refine ⟨_, _, ?_, hleft, hsupplies⟩
    unfold estMgHandler
    rw [hfound]
    dsimp only
    rw [hatoi, Int.toNat_natCast, bodyBuffer_full round hfull, hgot, hopen, hstop]
    simp
  · have hnil : body = [] := List.eq_nil_of_length_eq_zero hnone
    subst hnil
    refine ⟨r.bytes, r.cuts, ?_, hleft, hcuts⟩
    unfold estMgHandler
    rw [hfound]

/-- A round hands the request on as it was written, and leaves the stream behind it. -/
theorem Bodied.turn_eq (hbody : Bodied h body) (server : Nat → Round) {s : ConnState}
    (hrest : s.rest = h.text (body ++ tail)) (hcuts : Supplies s.cuts s.bytes.length) :
    ∃ next : ConnState, turn server s =
        (if h.keeps (server s.round) then .more next else .stop (s.frames ++ [⟨h.info, body⟩])) ∧
      next.rest = tail ∧ next.round = s.round + 1 ∧ next.frames = s.frames ++ [⟨h.info, body⟩] ∧
      Supplies next.cuts next.bytes.length := by
  obtain ⟨r, hread, hlong, hleft⟩ := h.readRequest_supplied hrest hbody.head hcuts
  have hwhole : r.data ++ r.bytes = h.text (body ++ tail) := (readRequest_rest hread).trans hrest
  have hscan : getRequestLen r.data = h.length := by
    rw [@Head.requestLen_prefix h (body ++ tail) r.data ⟨r.bytes, hwhole⟩, if_pos hlong]
  have hpos : ¬ (h.length : Int) ≤ 0 := by
    rw [Head.length, Head.text, message_length]
    omega
  have hparsed : parseHttpRequest (r.data ++ (server s.round).stale) = some h.info := by
    obtain ⟨more, hmore⟩ := List.prefix_of_prefix_length_le
      (⟨body ++ tail, (h.text_eq _).symm⟩ : h.text [] <+: h.text (body ++ tail))
      ⟨r.bytes, hwhole⟩ hlong
    rw [← hmore, List.append_assoc, ← h.text_eq]
    exact h.parsed _
  have hvalid : isValidUri h.info.uri = true := by
    have hrooted := h.targetRooted
    rw [isValidUri, decide_eq_true_eq]
    cases htarget : h.target with
    | nil =>
      rw [htarget] at hrooted
      cases hrooted
    | cons c target =>
      rw [htarget] at hrooted
      cases hrooted
      exact Or.inl ⟨target, htarget.symm⟩
  have hversion : ¬ (h.info.httpVersion.take 3 ≠ ascii "1.0" ∧ h.info.httpVersion.take 3 ≠ ascii "1.1") := by
    have hsame : (ascii "1.1").take 3 = ascii "1.1" := by
      rw [ascii_ofList]
      rfl
    exact fun hother => hother.2 hsame
  obtain ⟨bytes, cuts, hserved, hbehind, hsupplies⟩ := hbody.served (server s.round) hwhole hlong hleft
  refine ⟨{ data := discard r.data h.length body.length, bytes := bytes, cuts := cuts
            contentLen := body.length, round := s.round + 1
            frames := s.frames ++ [⟨h.info, body⟩] }, ?_, hbehind, rfl, rfl, hsupplies⟩
  have hserve : serve (server s.round) r h.length s.contentLen h.info =
      estMgHandler (server s.round) r h.length body.length h.info := by
    rw [serve, if_neg hversion]
    dsimp only
    rw [hbody.contentLength, if_neg (Int.not_lt.mpr hbody.short), if_neg (by omega)]
  unfold turn
  rw [hread]
  dsimp only
  rw [hscan, if_neg hpos, hparsed]
  dsimp only
  rw [if_neg (by rw [hvalid]; exact not_not.mpr rfl), Int.toNat_natCast, hserve, hserved]
  simp only [Head.keeps, Option.toList_some, Bool.and_eq_true, Bool.not_eq_true',
    Bool.not_eq_true, Int.natCast_nonneg, true_and]

end Rounds

section Connections

variable {server : Nat → Round}

/-- A request, and the body behind its header. -/
abbrev Written := Head × Bytes

def Written.text (w : Written) : Bytes := w.1.text w.2

def Written.frame (w : Written) : Frame := ⟨w.1.info, w.2⟩

/-- What is to be handed on of the requests on a connection, from a round on. -/
def handled (server : Nat → Round) : Nat → List Written → List Frame
  | _, [] => []
  | n, w :: rest =>
      w.frame :: if w.1.keeps (server n) then handled server (n + 1) rest else []

/-- Behind the last request the connection ends, or nobody reads on. -/
def Ended (server : Nat → Round) (tail : Bytes) : Nat → List Written → Prop
  | _, [] => tail = []
  | n, w :: rest => w.1.keeps (server n) = true → Ended server tail (n + 1) rest

theorem readRequest_nothing {cuts : List Cut} (h : Supplies cuts 0) : readRequest [] [] cuts = none := by
  induction cuts with
  | nil => rfl
  | cons cut cuts ih =>
    have hlater : Supplies cuts 0 := ⟨fun c hc => h.1 c (List.mem_cons_of_mem cut hc), Nat.zero_le _⟩
    rw [readRequest, if_pos (by decide)]
    cases cut with
    | data more => rfl
    | wantRead => exact ih hlater
    | failed | timedOut | stopped => exact absurd (h.1 _ List.mem_cons_self) (by decide)

theorem requests_handled {requests : List Written} {tail : Bytes}
    (hbodied : ∀ w ∈ requests, Bodied w.1 w.2) {s : ConnState}
    (hrest : s.rest = requests.flatMap Written.text ++ tail) (hended : Ended server tail s.round requests)
    (hcuts : Supplies s.cuts s.bytes.length) :
    loopTotal (turn server) (fun s => s.rest.length) (turn_shrinks server) s =
      s.frames ++ handled server s.round requests := by
  induction requests generalizing s with
  | nil =>
    have htail : tail = [] := hended
    rw [htail, List.flatMap_nil, List.append_nil] at hrest
    obtain ⟨hdata, hbytes⟩ := List.append_eq_nil_iff.mp hrest
    apply loopTotal_stop
    rw [hbytes] at hcuts
    rw [turn, hdata, hbytes, readRequest_nothing hcuts, handled, List.append_nil]
  | cons w rest ih =>
    have hfirst : s.rest = w.1.text (w.2 ++ (rest.flatMap Written.text ++ tail)) := by
      rw [hrest, List.flatMap_cons, List.append_assoc, Written.text, Head.text_eq, List.append_assoc,
        ← Head.text_eq]
    obtain ⟨next, hturn, hbehind, hround, hframes, hsupplies⟩ :=
      (hbodied w List.mem_cons_self).turn_eq server hfirst hcuts
    rw [handled]
    by_cases hkeeps : w.1.keeps (server s.round) = true
    · rw [if_pos hkeeps] at hturn ⊢
      have hlater : Ended server tail next.round rest := by
        rw [hround]
        exact hended hkeeps
      rw [loopTotal_more (turn_shrinks server) hturn,
        ih (fun v hv => hbodied v (List.mem_cons_of_mem w hv)) hbehind hlater hsupplies, hframes,
        hround, List.append_assoc]
      rfl
    · rw [if_neg hkeeps] at hturn ⊢
      exact loopTotal_stop (turn_shrinks server) hturn

theorem stream_handled {requests : List Written} {stream tail : Bytes}
    (hbodied : ∀ w ∈ requests, Bodied w.1 w.2)
    (hstream : stream = requests.flatMap Written.text ++ tail) (hended : Ended server tail 0 requests)
    {cuts : List Cut} (hcuts : Supplies cuts stream.length) :
    processNewConnection server stream cuts = handled server 0 requests := by
  have hrest : (accepted stream cuts).rest = requests.flatMap Written.text ++ tail := by
    rw [ConnState.rest, accepted, List.nil_append, hstream]
  exact requests_handled hbodied hrest hended hcuts

/-- Whatever pieces a connection brings them in, the requests on it are handed on one by one
as they were written, each with its own body, up to the first behind which the connection
is closed. -/
theorem requests_delivered (server : Nat → Round) {requests : List Written} {tail : Bytes}
    {cuts : List Cut} (hbodied : ∀ w ∈ requests, Bodied w.1 w.2)
    (hended : Ended server tail 0 requests)
    (hcuts : Supplies cuts (requests.flatMap Written.text ++ tail).length) :
    processNewConnection server (requests.flatMap Written.text ++ tail) cuts =
      handled server 0 requests :=
  stream_handled hbodied rfl hended hcuts

end Connections

section Instances

theorem isName_host : IsName "Host" := isName_ofList (by decide)

/-- A request with a body of so many bytes, or one for something. -/
def shortHead (length : Nat) : Head where
  method := if length = 0 then ascii "GET" else ascii "POST"
  target := ascii "/.well-known/est/csrattrs"
  fields :=
    [field "Host" (ascii "ca.example") isName_host (ascii_forall (by decide)),
      field "Content-Length" (decimal length) isName_contentLength (lineByte_decimal length)]
  methodKnown := by
    split
    · exact Or.inl rfl
    · exact Or.inr rfl
  targetRooted := by
    rw [ascii_ofList]
    rfl
  targetWord := ascii_forall (by decide)
  fieldsNe := List.cons_ne_nil _ _
  fieldsLe := by
    show 2 ≤ 64
    decide
  fieldsSound := by
    intro f hf
    rcases List.mem_cons.mp hf with rfl | hlength
    · exact field_sound isName_host (ascii_forall (by decide)) (ascii_forall (by decide))
    · rw [List.mem_singleton.mp hlength]
      exact field_sound isName_contentLength (ascii_forall (by decide)) (headByte_decimal length)

theorem shortHead_bodied {body : Bytes} (h : body.length < 100) :
    Bodied (shortHead body.length) body where
  declared := by
    have hhost : ∀ hdr ∈ [(field "Host" (ascii "ca.example") isName_host
        (ascii_forall (by decide))).header],
        hdr.name.map tolower ≠ (ascii "Content-Length").map tolower := by
      intro hdr hmem
      rw [List.mem_singleton.mp hmem]
      exact name_ne (by decide)
    left
    show getHeader ([_] ++ [_]) "Content-Length" = _
    rw [getHeader_skip hhost, field_header isName_contentLength _ (decimal_front _),
      getHeader_first rfl]
  short := by
    unfold estMaxContentLen
    omega
  head := by
    have hmethod : (shortHead body.length).method.length ≤ 4 := by
      rcases (shortHead body.length).methodKnown with hget | hpost
      · rw [hget]
        exact ascii_length_le (by decide)
      · rw [hpost]
        exact ascii_length_le (by decide)
    have htarget : (ascii "/.well-known/est/csrattrs").length ≤ 25 := ascii_length_le (by decide)
    have hversion : (ascii "HTTP/1.1").length ≤ 8 := ascii_length_le (by decide)
    have hname : (ascii "Host").length ≤ 4 := ascii_length_le (by decide)
    have hvalue : (ascii "ca.example").length ≤ 10 := ascii_length_le (by decide)
    have hlength : (ascii "Content-Length").length ≤ 14 := ascii_length_le (by decide)
    have hnumber : (decimal body.length).length ≤ 2 := numeral_length_le (by decide) (by decide) h
    have hmax : maxRequestSize = 16384 := rfl
    have htext : (shortHead body.length).length =
        (shortHead body.length).line.length + ((shortHead body.length).fields.flatMap Field.line).length +
          ([] : Bytes).length + 4 := message_length
    rw [htext, Head.line]
    simp only [List.length_append, List.length_cons, List.length_nil, shortHead, List.flatMap_cons,
      List.flatMap_nil, Field.line, field, lineEnd] at hmethod ⊢
    omega

/-- A request behind one whose body looks like a request. -/
def shortRequests : List Written :=
  [(shortHead 18, ascii "GET / HTTP/1.1\r\n\r\n"), (shortHead 0, [])]

def openServer (_ : Nat) : Round where
  stale := []
  heap _ := 0
  statusCode := 200
  stop := false

theorem shortRequests_delivered :
    processNewConnection openServer (shortRequests.flatMap Written.text ++ [])
        (List.replicate (shortRequests.flatMap Written.text ++ []).length (.data 0)) =
      handled openServer 0 shortRequests := by
  apply requests_delivered openServer
  · intro w hw
    rcases List.mem_cons.mp hw with rfl | hlast
    · have hlength : (ascii "GET / HTTP/1.1\r\n\r\n").length = 18 := by
        rw [ascii_ofList]
        rfl
      have hbodied := @shortHead_bodied (ascii "GET / HTTP/1.1\r\n\r\n") (by omega)
      rwa [hlength] at hbodied
    · rw [List.mem_singleton.mp hlast]
      exact @shortHead_bodied [] (by decide)
  · exact fun _ _ => rfl
  · exact supplies_replicate _

end Instances

end LibEst.Wire.Requests
