import LibEst.Client.HeaderLines
import LibEst.Client.MultipartRead
import LibEst.Client.Reference
import LibEst.Server.KeygenResponse

/-! The answer to a key generation request, from the texts that the server has to
the texts that the client gets. -/
namespace LibEst.Client.KeygenRoundTrip

open LibEst.Basic LibEst.Base64 LibEst.Lib.ByteString LibEst.Lib.Loop LibEst.SafeStr
open LibEst.Server.AuthHeader LibEst.Server.KeygenResponse
open LibEst.Client.Context LibEst.Client.Multipart LibEst.Client.MultipartRead LibEst.Client.Http
open LibEst.Client.HeaderLines LibEst.Client.Reference

section Callback

variable {p : Parser} {data : Bytes}

/-- The headers of a part whose content type is kept. -/
def partHdrs (contentType : Bytes) : List Hdr :=
  [⟨contentEncodingName, base64Encoding⟩, ⟨contentTypeName, contentType⟩]

theorem partParser_of_accepted {contentType : Bytes}
    (h : acceptedHdr contentTypeName contentType = true) :
    partParser p contentType = { p with
      index := 0
      state := .partDataStart
      hdrName := contentEncodingName
      hdrs := partHdrs contentType ++ p.hdrs } := by
  have hencoding : acceptedHdr contentEncodingName base64Encoding = true := by decide
  simp only [partParser, readHeader, readHeaderName, readHeaderValue, h, hencoding, if_true,
    partHdrs, List.cons_append, List.nil_append]

theorem partDataCb_key {hdrs : List Hdr} (h : p.hdrs = partHdrs pkcs8Type ++ hdrs)
    (hsize : data.length ≤ multipartParseDataMax) :
    partDataCb p data =
      if onlyWhitespace data then (true, p) else partDone { p with keyData := data } := by
  have hct : findHdr p contentTypeName = some pkcs8Type := by
    rw [findHdr, h]
    rfl
  have hcte : findHdr p contentEncodingName = some base64Encoding := by
    rw [findHdr, h]
    rfl
  rw [partDataCb, hct, hcte]
  dsimp only
  rw [if_neg (by decide), if_neg (Nat.not_lt_of_le hsize), if_pos (by decide)]

theorem partDataCb_cert {hdrs : List Hdr} (h : p.hdrs = partHdrs pkcs7Type ++ hdrs)
    (hsize : data.length ≤ multipartParseDataMax) :
    partDataCb p data =
      if onlyWhitespace data then (true, p) else partDone { p with certData := data } := by
  have hct : findHdr p contentTypeName = some pkcs7Type := by
    rw [findHdr, h]
    rfl
  have hcte : findHdr p contentEncodingName = some base64Encoding := by
    rw [findHdr, h]
    rfl
  rw [partDataCb, hct, hcte]
  dsimp only
  rw [if_neg (by decide), if_neg (Nat.not_lt_of_le hsize), if_neg (by decide), if_pos (by decide)]

end Callback

section TwoParts

/-- A text that the writer can put between two boundaries. -/
structure PartData (data : Bytes) : Prop where
  ne : data ≠ []
  noHyphen : ∀ c ∈ data, c ≠ 45
  size : data.length ≤ multipartParseDataMax

/-- The two parts behind the first two hyphens. -/
def twoParts (boundary key cert rest : Bytes) : Bytes :=
  partText boundary pkcs8Type key (45 :: partText boundary pkcs7Type cert rest)

theorem plainHeader_pkcs8 : PlainHeader contentTypeName pkcs8Type := by constructor <;> decide

theorem plainHeader_pkcs7 : PlainHeader contentTypeName pkcs7Type := by constructor <;> decide

/-- How the parser comes out of a text of two parts. -/
inductive Outcome (len : Nat) (key cert : Bytes) (result : Parsed) : Prop where
  | both (hkey : onlyWhitespace key = false) (hcert : onlyWhitespace cert = false)
      (keyData : result.2.keyData = key) (certData : result.2.certData = cert) :
      Outcome len key cert result
  | refused (blank : onlyWhitespace key = true ∨ onlyWhitespace cert = true)
      (populated : bothPopulated result.2 = false) (short : result.1 < len) :
      Outcome len key cert result

variable {buf boundary key cert rest : Bytes} {len : Nat}

/-- The certificate part, when the parser has the key. -/
theorem outcome_of_certPart (hlen : buf.length < len) {x : Cursor} {start : Cursor}
    (hstart : Reaches (turn buf len) start x) (hstate : x.parser.state = .startBoundary)
    (hindex : x.parser.index + boundary.length = x.parser.boundary.length)
    (hdrop : buf.drop x.i = partText boundary pkcs7Type cert rest) (hcert : PartData cert)
    (hkey : x.parser.keyData = key) (hkeyNe : key ≠ []) (hblank : onlyWhitespace key = false)
    (hempty : x.parser.certData = []) :
    Outcome len key cert (loopTotal (turn buf len) (remaining len) (turn_shrinks buf len) start) := by
  obtain ⟨y, hreach, hdata, hparser, -⟩ :=
    reaches_part hlen hstate plainHeader_pkcs7 hcert.noHyphen hcert.ne hdrop hindex
  rw [partParser_of_accepted (by decide)] at hparser
  have hhdrs : (atPartEnd y cert).parser.hdrs = partHdrs pkcs7Type ++ x.parser.hdrs := by
    rw [show (atPartEnd y cert).parser.hdrs = y.parser.hdrs from rfl, hparser]
  have hcb := partDataCb_cert hhdrs hcert.size
  have hshort : y.i + cert.length < len := lt_of_drop hlen (drop_add_of_drop hdata)
  have hkeyData : (atPartEnd y cert).parser.keyData = key := by
    rw [show (atPartEnd y cert).parser.keyData = y.parser.keyData from rfl, hparser]
    exact hkey
  have hcertData : (atPartEnd y cert).parser.certData = [] := by
    rw [show (atPartEnd y cert).parser.certData = y.parser.certData from rfl, hparser]
    exact hempty
  cases hcertBlank : onlyWhitespace cert with
  | true =>
    rw [hcertBlank, if_pos rfl] at hcb
    rw [loopTotal_of_reaches _ (hstart.trans hreach) (turn_atPartEnd_stop hlen hdata hcb)]
    apply Outcome.refused (.inr hcertBlank) _ hshort
    simp only [bothPopulated, hcertData, ne_eq, not_true_eq_false, and_false, decide_false]
  | false =>
    have hboth : bothPopulated { (atPartEnd y cert).parser with certData := cert } = true := by
      simp only [bothPopulated, hkeyData, ne_eq, hkeyNe, hcert.ne, not_false_eq_true, and_self,
        decide_true]
    rw [hcertBlank, if_neg (by simp), partDone, if_pos hboth] at hcb
    rw [loopTotal_of_reaches _ (hstart.trans hreach) (turn_atPartEnd_stop hlen hdata hcb)]
    exact Outcome.both hblank hcertBlank hkeyData rfl

/-- The key part, and what is behind it. -/
theorem outcome_of_keyPart (hlen : buf.length < len) {x : Cursor} {start : Cursor}
    (hstart : Reaches (turn buf len) start x) (hstate : x.parser.state = .startBoundary)
    {line : Bytes} (hindex : x.parser.index + line.length = x.parser.boundary.length)
    (hboundary : x.parser.boundary = boundary)
    (hdrop : buf.drop x.i = partText line pkcs8Type key (45 :: partText boundary pkcs7Type cert rest))
    (hkey : PartData key) (hcert : PartData cert) (hempty : x.parser.certData = [])
    (hnum : x.numPayloads = 0)
    (hexpected : x.parser.expectedPayloads = 2) :
    Outcome len key cert (loopTotal (turn buf len) (remaining len) (turn_shrinks buf len) start) := by
  obtain ⟨y, hreach, hdata, hparser, hcount⟩ :=
    reaches_part hlen hstate plainHeader_pkcs8 hkey.noHyphen hkey.ne hdrop hindex
  rw [partParser_of_accepted (by decide)] at hparser
  have hhdrs : (atPartEnd y key).parser.hdrs = partHdrs pkcs8Type ++ x.parser.hdrs := by
    rw [show (atPartEnd y key).parser.hdrs = y.parser.hdrs from rfl, hparser]
  have hcb := partDataCb_key hhdrs hkey.size
  have hshort : y.i + key.length < len := lt_of_drop hlen (drop_add_of_drop hdata)
  have hcertData : (atPartEnd y key).parser.certData = [] := by
    rw [show (atPartEnd y key).parser.certData = y.parser.certData from rfl, hparser]
    exact hempty
  cases hkeyBlank : onlyWhitespace key with
  | true =>
    rw [hkeyBlank, if_pos rfl] at hcb
    rw [loopTotal_of_reaches _ (hstart.trans hreach) (turn_atPartEnd_stop hlen hdata hcb)]
    apply Outcome.refused (.inl hkeyBlank) _ hshort
    simp only [bothPopulated, hcertData, ne_eq, not_true_eq_false, and_false, decide_false]
  | false =>
    have hboth : ¬ bothPopulated { (atPartEnd y key).parser with keyData := key } = true := by
      simp only [bothPopulated, hcertData, ne_eq, not_true_eq_false, and_false, decide_false,
        Bool.false_eq_true, not_false_eq_true]
    rw [hkeyBlank, if_neg (by simp), partDone, if_neg hboth] at hcb
    have hmore : y.numPayloads + 1 ≠ (atPartEnd y key).parser.expectedPayloads := by
      rw [show (atPartEnd y key).parser.expectedPayloads = y.parser.expectedPayloads from rfl,
        hparser, hcount, hnum]
      simp [hexpected]
    have hnext := reaches_nextBoundary hlen hdata hcb hmore
    have hbound : (atPartEnd y key).parser.boundary = boundary := by
      rw [show (atPartEnd y key).parser.boundary = y.parser.boundary from rfl, hparser]
      exact hboundary
    have hdropNext : buf.drop (y.i + key.length + 4) = partText boundary pkcs7Type cert rest :=
      drop_succ_of_drop (drop_succ_of_drop (drop_succ_of_drop (drop_succ_of_drop
        (drop_add_of_drop hdata))))
    apply outcome_of_certPart hlen ((hstart.trans hreach).trans hnext) rfl _ hdropNext hcert rfl
      hkey.ne hkeyBlank hcertData
    show 0 + boundary.length = (atPartEnd y key).parser.boundary.length
    rw [hbound, Nat.zero_add]

/-- Two parts are read as they were written, or one of them is blank and the
parser stops there. -/
theorem execute_twoParts {c : UInt8} {line : Bytes} (hc : c ≠ 45) (hkey : PartData key)
    (hcert : PartData cert)
    (hlen : (twoParts (c :: line) key cert rest).length < len) :
    Outcome len key cert (multipartParserExecute (multipartParserInit (c :: line))
      (45 :: 45 :: twoParts (c :: line) key cert rest) len) := by
  have hbuf : (45 :: 45 :: twoParts (c :: line) key cert rest).dropWhile (· = 45) =
      twoParts (c :: line) key cert rest := by
    rw [List.dropWhile_cons_of_pos (by decide), List.dropWhile_cons_of_pos (by decide)]
    exact List.dropWhile_cons_of_neg (by simpa using hc)
  unfold multipartParserExecute
  dsimp only
  rw [hbuf]
  let x : Cursor := { firstCursor
    { multipartParserInit (c :: line) with index := 1, state := .startBoundary } with i := 1 }
  have hfirst : Reaches (turn (twoParts (c :: line) key cert rest) len)
      (firstCursor (multipartParserInit (c :: line))) x := by
    apply Reaches.step
    rw [turn_of_state (Nat.lt_of_le_of_lt (Nat.zero_le _) hlen)
      (show (firstCursor (multipartParserInit (c :: line))).parser.state = .start from rfl), stateTurn]
    rfl
  have hindex : x.parser.index + line.length = x.parser.boundary.length := Nat.add_comm 1 line.length
  have hdrop : (twoParts (c :: line) key cert rest).drop x.i =
      partText line pkcs8Type key (45 :: partText (c :: line) pkcs7Type cert rest) := rfl
  exact outcome_of_keyPart hlen hfirst rfl hindex rfl hdrop hkey hcert rfl rfl rfl

end TwoParts

section HeaderLines

/-- What a header line may have in it. -/
structure HeaderText (name value : Bytes) : Prop where
  nameColon : (58 : UInt8) ∉ name
  nameZero : (0 : UInt8) ∉ name
  valueLine : ∀ c ∈ value, c ∉ lineEnd
  valueZero : (0 : UInt8) ∉ value
  valueFront : value.head? ≠ some 32
  valueNe : value ≠ []

theorem parseHeader_line {name value : Bytes} (h : HeaderText name value) (rest : Bytes) :
    parseHeader (name ++ 58 :: 32 :: (value ++ 13 :: rest)) =
      (⟨name, value⟩, rest.dropWhile (· ∈ lineEnd)) := by
  have hline : ∀ c ∈ 32 :: value, c ∉ lineEnd := by
    intro c hc
    rcases List.mem_cons.mp hc with rfl | hmem
    · decide
    · exact h.valueLine c hmem
  have hzero : (0 : UInt8) ∉ 32 :: value := by
    rw [List.mem_cons, not_or]
    exact ⟨by decide, h.valueZero⟩
  have hfront : (32 :: value).dropWhile (· = 32) = value := by
    have hhead := h.valueFront
    rw [List.dropWhile_cons_of_pos (by decide)]
    cases value with
    | nil => rfl
    | cons c value => exact List.dropWhile_cons_of_neg (by simpa using hhead)
  rw [← List.cons_append, parseHeader_field h.nameColon h.nameZero hline hzero, hfront]

end HeaderLines

section Header

def keygenBody (key cert : Bytes) : Bytes :=
  pvtKeyHdr ++ key ++ certHdr ++ cert ++ finalBndryHdr

def keygenStream (key cert : Bytes) : Bytes := (keygenWrites key cert).flatten

theorem keygenBody_length (key cert : Bytes) :
    (keygenBody key cert).length = contentLength key cert := by
  unfold keygenBody contentLength
  simp only [List.length_append]

theorem keygenStream_eq (key cert : Bytes) :
    keygenStream key cert = httpHdr key cert ++ keygenBody key cert := by
  unfold keygenStream keygenWrites keygenBody
  simp only [List.flatten_cons, List.flatten_nil, List.append_nil, List.append_assoc]

def mixedValue : Bytes := ascii "multipart/mixed; boundary=est-server-boundary"

/-- An answer line by line: its first line, and line ends that stand before the body. -/
def answerLines (first : Bytes) (length : Nat) (gap body : Bytes) : Bytes :=
  first ++ 13 :: 10 ::
    (ascii "Status" ++ 58 :: 32 :: (ascii "200 OK" ++ 13 :: 10 ::
      (ascii "Content-Type" ++ 58 :: 32 :: (mixedValue ++ 13 :: 10 ::
        (ascii "Content-Length" ++ 58 :: 32 :: (decimal length ++ 13 :: 10 :: 13 :: 10 ::
          (gap ++ body)))))))

/-- The stream line by line. -/
def streamLines (length : Nat) (body : Bytes) : Bytes :=
  ascii "HTTP/1.1 200 OK" ++ 13 :: 10 ::
    (ascii "Status" ++ 58 :: 32 :: (ascii "200 OK" ++ 13 :: 10 ::
      (ascii "Content-Type" ++ 58 :: 32 :: (mixedValue ++ 13 :: 10 ::
        (ascii "Content-Length" ++ 58 :: 32 :: (decimal length ++ 13 :: 10 :: 13 :: 10 :: body))))))

theorem httpHdr_append (key cert body : Bytes) :
    httpHdr key cert ++ body = streamLines (contentLength key cert) body := by
  have hfront : ascii "HTTP/1.1 200 OK\r\nStatus: 200 OK\r\n" ++
      ascii "Content-Type: multipart/mixed; boundary=" ++ estHttpBoundary ++ ascii "\r\n" ++
      ascii "Content-Length: " =
      ascii "HTTP/1.1 200 OK" ++ 13 :: 10 :: (ascii "Status" ++ 58 :: 32 :: (ascii "200 OK" ++
        13 :: 10 :: (ascii "Content-Type" ++ 58 :: 32 :: (mixedValue ++ 13 :: 10 ::
          (ascii "Content-Length" ++ [58, 32]))))) := by
    decide +kernel
  have hend : ascii "\r\n\r\n" = [13, 10, 13, 10] := by decide
  unfold httpHdr streamLines
  rw [hfront, hend]
  simp only [List.append_assoc, List.cons_append, List.nil_append]

theorem keygenBody_eq (key cert : Bytes) :
    keygenBody key cert = 45 :: 45 ::
      twoParts estHttpBoundary key cert (45 :: (estHttpBoundary ++ ascii "--\r\n\r\n")) := by
  have hkey : pvtKeyHdr = 45 :: 45 :: (estHttpBoundary ++ 13 :: 10 :: (contentTypeName ++
      58 :: 32 :: (pkcs8Type ++ 13 :: 10 :: (contentEncodingName ++ 58 :: 32 ::
        (base64Encoding ++ [13, 10, 13, 10]))))) := by
    decide +kernel
  have hcert : certHdr = 13 :: 10 :: 45 :: 45 :: (estHttpBoundary ++ 13 :: 10 :: (contentTypeName ++
      58 :: 32 :: (pkcs7Type ++ 13 :: 10 :: (contentEncodingName ++ 58 :: 32 ::
        (base64Encoding ++ [13, 10, 13, 10]))))) := by
    decide +kernel
  have hfinal : finalBndryHdr =
      13 :: 10 :: 45 :: 45 :: (estHttpBoundary ++ ascii "--\r\n\r\n") := by
    decide +kernel
  unfold keygenBody twoParts partText
  rw [hkey, hcert, hfinal]
  simp only [List.append_assoc, List.cons_append, List.nil_append]

theorem headerText_status : HeaderText (ascii "Status") (ascii "200 OK") := by
  constructor <;> decide

theorem headerText_type : HeaderText (ascii "Content-Type") mixedValue := by
  constructor <;> decide +kernel

theorem not_mem_decimal {c : UInt8} (h : ∀ d, d < 16 → digitByte d ≠ c) (n : Nat) : c ∉ decimal n :=
  not_mem_numeral (by decide) (by decide) h n

theorem headerText_length (n : Nat) : HeaderText (ascii "Content-Length") (decimal n) where
  nameColon := by decide
  nameZero := by decide
  valueLine := by
    intro c hc hmem
    rw [lineEnd, List.mem_cons, List.mem_singleton] at hmem
    cases hmem with
    | inl h => exact not_mem_decimal (by decide) n (h ▸ hc)
    | inr h => exact not_mem_decimal (by decide) n (h ▸ hc)
  valueZero := not_mem_decimal (by decide) n
  valueFront := fun h => not_mem_decimal (by decide) n (List.mem_of_mem_head? h)
  valueNe := decimal_ne_nil n

theorem scanBoundary_decimal (n : Nat) : scanBoundary (decimal n) = .silent := by
  rw [scanBoundary, if_pos]
  exact strstr_none (not_mem_decimal (by decide) n)

/-- A header line with another line behind it. -/
theorem strstr_headerLine {name value text : Bytes} (hname : (13 : UInt8) ∉ name)
    (hvalue : (13 : UInt8) ∉ value) {c : UInt8} (htext : text.head? = some c) (hc : c ≠ 13) :
    strstr headerDelimiter (name ++ 58 :: 32 :: (value ++ 13 :: 10 :: text)) =
      strstr headerDelimiter text := by
  have hline : (13 : UInt8) ∉ name ++ 58 :: 32 :: value := by
    simp [hname, hvalue]
  have hskip := strstr_line hline htext hc
  rw [List.append_assoc, List.cons_append, List.cons_append] at hskip
  exact hskip

theorem strstr_answerLines {first : Bytes} (hfirst : (13 : UInt8) ∉ first) (length : Nat)
    (gap body : Bytes) :
    strstr headerDelimiter (answerLines first length gap body) =
      some (headerDelimiter ++ (gap ++ body)) := by
  have hlast : (13 : UInt8) ∉ ascii "Content-Length" ++ 58 :: 32 :: decimal length := by
    have hdecimal : (13 : UInt8) ∉ decimal length := not_mem_decimal (by decide) length
    have hname : (13 : UInt8) ∉ ascii "Content-Length" := by decide
    simp [hdecimal, hname]
  have hfound := strstr_lastLine hlast (gap ++ body)
  rw [List.append_assoc, List.cons_append, List.cons_append] at hfound
  rw [answerLines, strstr_line hfirst (c := 83) rfl (by decide),
    strstr_headerLine (by decide) (by decide) (c := 67) rfl (by decide),
    strstr_headerLine (by decide) (by decide +kernel) (c := 67) rfl (by decide)]
  exact hfound

theorem strstr_streamLines (length : Nat) (body : Bytes) :
    strstr headerDelimiter (streamLines length body) = some (headerDelimiter ++ body) :=
  strstr_answerLines (by decide) length [] body

/-- The headers of the answer. -/
def keygenHdrs (length : Nat) : List HttpHeader :=
  [⟨ascii "Status", ascii "200 OK"⟩, ⟨ascii "Content-Type", mixedValue⟩,
    ⟨ascii "Content-Length", decimal length⟩]

/-- The line end behind a line is skipped, and the next line is not. -/
theorem dropWhile_lineEnd {text : Bytes} (ends : Bytes) (hends : ∀ c ∈ ends, c ∈ lineEnd) {c : UInt8}
    (htext : text.head? = some c) (hc : c ∉ lineEnd) :
    (ends ++ text).dropWhile (· ∈ lineEnd) = text := by
  rw [List.dropWhile_append_of_pos (by simpa using hends)]
  cases text with
  | nil => rfl
  | cons d text =>
    cases htext
    exact List.dropWhile_cons_of_neg (by simpa using hc)

/-- What the loop makes of one header line. -/
theorem parseHeader_keygenLine {name value text : Bytes} (h : HeaderText name value)
    {c d : UInt8} (hname : name.head? = some c) (hc : c ≠ 10) (ends : Bytes)
    (hends : ∀ c ∈ ends, c ∈ lineEnd) (htext : text.head? = some d) (hd : d ∉ lineEnd) :
    parseHeader ((name ++ 58 :: 32 :: (value ++ 13 :: (ends ++ text))).dropWhile (· = 10)) =
      (⟨name, value⟩, text) := by
  have hfront : (name ++ 58 :: 32 :: (value ++ 13 :: (ends ++ text))).dropWhile (· = 10) =
      name ++ 58 :: 32 :: (value ++ 13 :: (ends ++ text)) := by
    cases name with
    | nil => cases hname
    | cons e name =>
      cases hname
      exact List.dropWhile_cons_of_neg (by simpa using hc)
  rw [hfront, parseHeader_line h, dropWhile_lineEnd ends hends htext hd]

theorem parseAndSplit_answerLines {first : Bytes} (hfirst : ∀ c ∈ first, c ∉ lineEnd)
    (hzero : (0 : UInt8) ∉ first) (length : Nat) {gap body : Bytes} (hgap : ∀ c ∈ gap, c ∈ lineEnd)
    (hbody : body.head? = some 45) :
    parseAndSplitKeygenRsp (answerLines first length gap body) =
      some (keygenHdrs length, some estHttpBoundary, body) := by
  let lengthLine := ascii "Content-Length" ++ 58 :: 32 ::
    (decimal length ++ 13 :: ([10, 13, 10] ++ gap ++ body))
  let typeLine := ascii "Content-Type" ++ 58 :: 32 :: (mixedValue ++ 13 :: 10 :: lengthLine)
  let statusLine := ascii "Status" ++ 58 :: 32 :: (ascii "200 OK" ++ 13 :: 10 :: typeLine)
  have hlines : answerLines first length gap body = first ++ 13 :: 10 :: statusLine := by
    unfold answerLines
    simp only [statusLine, typeLine, lengthLine, List.cons_append, List.nil_append]
  have hskipped : (skip lineEnd (answerLines first length gap body)).2 = statusLine := by
    rw [hlines, skip_line hfirst hzero]
    exact dropWhile_lineEnd [10] (by decide) (show statusLine.head? = some 83 from rfl) (by decide)
  have hstatus : parseHeader (statusLine.dropWhile (· = 10)) =
      (⟨ascii "Status", ascii "200 OK"⟩, typeLine) :=
    parseHeader_keygenLine headerText_status (c := 83) rfl (by decide) [10] (by decide)
      (show typeLine.head? = some 67 from rfl) (by decide)
  have htype : parseHeader (typeLine.dropWhile (· = 10)) =
      (⟨ascii "Content-Type", mixedValue⟩, lengthLine) :=
    parseHeader_keygenLine headerText_type (c := 67) rfl (by decide) [10] (by decide)
      (show lengthLine.head? = some 67 from rfl) (by decide)
  have hends : ∀ c ∈ [10, 13, 10] ++ gap, c ∈ lineEnd := by
    intro c hc
    rcases List.mem_append.mp hc with hfront | hmem
    · exact (show ∀ c ∈ [(10 : UInt8), 13, 10], c ∈ lineEnd by decide) c hfront
    · exact hgap c hmem
  have hlength : parseHeader (lengthLine.dropWhile (· = 10)) =
      (⟨ascii "Content-Length", decimal length⟩, body) :=
    parseHeader_keygenLine (headerText_length length) (c := 67) rfl (by decide) _ hends hbody
      (by decide)
  have hnot {text : Bytes} (h : 4 + (gap.length + body.length) ≤ text.length) :
      behindHeaders (some (headerDelimiter ++ (gap ++ body))) text = false := by
    unfold behindHeaders
    simp only [List.length_append, headerDelimiter, List.length_cons, List.length_nil]
    simpa using h
  have hbehind : behindHeaders (some (headerDelimiter ++ (gap ++ body))) body = true := by
    unfold behindHeaders
    simp only [List.length_append, headerDelimiter, List.length_cons, List.length_nil]
    simp
    omega
  have hline : (13 : UInt8) ∉ first := fun hmem => hfirst 13 hmem (by decide)
  unfold parseAndSplitKeygenRsp maxHeaders
  rw [strstr_answerLines hline, hskipped, parseKeygenLoop, hstatus]
  dsimp only
  rw [show scanBoundary (ascii "200 OK") = .silent from by decide]
  dsimp only
  rw [if_neg (by decide), hnot (by simp [typeLine, lengthLine]; omega), if_neg (by simp),
    parseKeygenLoop, htype]
  dsimp only
  rw [show scanBoundary mixedValue = .found estHttpBoundary mixedValue from by decide +kernel]
  dsimp only
  rw [if_neg (by decide), hnot (by simp [lengthLine]; omega), if_neg (by simp),
    parseKeygenLoop, hlength]
  dsimp only
  rw [scanBoundary_decimal]
  dsimp only
  rw [if_neg (by decide), hbehind, if_pos rfl]
  rfl

end Header

section RoundTrip

/-- A base64 text in lines: the characters of the alphabet, the padding, carriage
returns and line feeds. -/
def IsBase64Line (c : UInt8) : Prop := c ∈ alphabet ∨ c = 61 ∨ c = 13 ∨ c = 10

structure TransferText (low high : Nat) (text : Bytes) : Prop where
  bytes : ∀ c ∈ text, IsBase64Line c
  low : low ≤ text.length
  high : text.length ≤ high

/-- The text is more than line ends. -/
def HasSymbol (text : Bytes) : Prop := ∃ c ∈ text, c ≠ 13 ∧ c ≠ 10

variable {low high : Nat} {text key cert : Bytes}

theorem IsBase64Line.ne {c : UInt8} (h : IsBase64Line c) : c ≠ 45 ∧ c ≠ 0 ∧ c ≠ 32 := by
  have halphabet : ∀ c ∈ alphabet, c ≠ 45 ∧ c ≠ 0 ∧ c ≠ 32 := by decide +kernel
  rcases h with h | rfl | rfl | rfl
  · exact halphabet c h
  · decide
  · decide
  · decide

theorem transferText_replicate {c : UInt8} (hc : IsBase64Line c) {n : Nat} (hlow : low ≤ n)
    (hhigh : n ≤ high) : TransferText low high (List.replicate n c) where
  bytes := fun _ hd => List.eq_of_mem_replicate hd ▸ hc
  low := by rwa [List.length_replicate]
  high := by rwa [List.length_replicate]

theorem TransferText.partData (h : TransferText low high text) (hlow : 0 < low)
    (hhigh : high ≤ multipartParseDataMax) : PartData text where
  ne := by
    rintro rfl
    exact absurd h.low (Nat.not_le_of_lt hlow)
  noHyphen := fun c hc => (h.bytes c hc).ne.1
  size := Nat.le_trans h.high hhigh

theorem TransferText.onlyWhitespace_iff (h : TransferText low high text) :
    onlyWhitespace text = false ↔ HasSymbol text := by
  unfold onlyWhitespace HasSymbol
  rw [List.all_eq_false]
  constructor
  · rintro ⟨c, hc, hne⟩
    simp only [decide_eq_true_eq, not_or] at hne
    exact ⟨c, hc, hne.2⟩
  · rintro ⟨c, hc, hne⟩
    refine ⟨c, hc, ?_⟩
    simp only [decide_eq_true_eq, not_or]
    exact ⟨(h.bytes c hc).ne.2.2, hne⟩

/-- A stream with a header in front of the body, whose last line gives a length. -/
structure Framed (stream : Bytes) (length : Nat) (body : Bytes) : Prop where
  lastLine : ∃ front, stream =
    front ++ ascii "\r\nContent-Length: " ++ decimal length ++ headerDelimiter ++ body
  firstDelimiter : strstr headerDelimiter stream = some (headerDelimiter ++ body)

theorem framed_keygenStream (key cert : Bytes) :
    Framed (keygenStream key cert) (keygenBody key cert).length (keygenBody key cert) where
  lastLine := by
    have hline : ascii "\r\nContent-Length: " = ascii "\r\n" ++ ascii "Content-Length: " := by
      decide
    have hend : headerDelimiter = ascii "\r\n\r\n" := by decide
    refine ⟨ascii "HTTP/1.1 200 OK\r\nStatus: 200 OK\r\n" ++
      ascii "Content-Type: multipart/mixed; boundary=" ++ estHttpBoundary, ?_⟩
    rw [keygenStream_eq, keygenBody_length, httpHdr, hline, hend]
    simp only [List.append_assoc]
  firstDelimiter := by
    rw [keygenStream_eq, httpHdr_append, strstr_streamLines]

theorem zero_not_mem_keygenBody (hkey : (0 : UInt8) ∉ key) (hcert : (0 : UInt8) ∉ cert) :
    (0 : UInt8) ∉ keygenBody key cert := by
  have hfirst : (0 : UInt8) ∉ pvtKeyHdr := by decide +kernel
  have hsecond : (0 : UInt8) ∉ certHdr := by decide +kernel
  have hthird : (0 : UInt8) ∉ finalBndryHdr := by decide +kernel
  unfold keygenBody
  simp only [List.mem_append, hfirst, hsecond, hthird, hkey, hcert, or_self, not_false_eq_true]

theorem zero_not_mem_httpHdr (key cert : Bytes) : (0 : UInt8) ∉ httpHdr key cert := by
  have hfirst : (0 : UInt8) ∉ ascii "HTTP/1.1 200 OK\r\nStatus: 200 OK\r\n" := by decide +kernel
  have htype : (0 : UInt8) ∉ ascii "Content-Type: multipart/mixed; boundary=" := by decide +kernel
  have hboundary : (0 : UInt8) ∉ estHttpBoundary := by decide
  have hline : (0 : UInt8) ∉ ascii "\r\n" := by decide
  have hlength : (0 : UInt8) ∉ ascii "Content-Length: " := by decide
  have hend : (0 : UInt8) ∉ ascii "\r\n\r\n" := by decide
  have hdecimal : (0 : UInt8) ∉ decimal (contentLength key cert) := not_mem_decimal (by decide) _
  unfold httpHdr
  simp only [List.mem_append, hfirst, htype, hboundary, hline, hlength, hend, hdecimal, or_self,
    not_false_eq_true]

theorem fromFirstBoundary_body (key cert : Bytes) :
    fromFirstBoundary estHttpBoundary (keygenBody key cert) [] = some (keygenBody key cert) := by
  have hfound : strstr estHttpBoundary (keygenBody key cert) =
      some ((keygenBody key cert).drop 2) := by
    rw [keygenBody_eq]
    rfl
  have hlong : 2 ≤ (keygenBody key cert).length := by
    rw [keygenBody_eq]
    simp
  have hoffset : (keygenBody key cert).length - ((keygenBody key cert).drop 2).length = 2 := by
    rw [List.length_drop]
    omega
  rw [fromFirstBoundary, hfound, Option.map_some, hoffset, if_neg (by decide), List.append_nil]
  rfl

theorem outcome_body (hkey : PartData key) (hcert : PartData cert) :
    Outcome (keygenBody key cert).length key cert (multipartParserExecute
      (multipartParserInit estHttpBoundary) (keygenBody key cert) (keygenBody key cert).length) := by
  have hboundary : estHttpBoundary = 101 :: ascii "st-server-boundary" := by decide
  rw [keygenBody_eq, hboundary]
  apply execute_twoParts (by decide) hkey hcert
  rw [List.length_cons, List.length_cons]
  omega

theorem parseRemaining_body (hkey : PartData key) (hcert : PartData cert)
    (hzero : (0 : UInt8) ∉ keygenBody key cert) :
    parseRemainingMultipartPayload (keygenBody key cert) estHttpBoundary =
      if onlyWhitespace key ∨ onlyWhitespace cert then .error .multipartParse
      else .ok (key, cert) := by
  unfold parseRemainingMultipartPayload
  rw [cString_eq_self hzero]
  dsimp only
  cases outcome_body hkey hcert with
  | both hkeyText hcertText hkeyData hcertData =>
    have hboth : bothPopulated (multipartParserExecute (multipartParserInit estHttpBoundary)
        (keygenBody key cert) (keygenBody key cert).length).2 = true := by
      simp only [bothPopulated, hkeyData, hcertData, ne_eq, hkey.ne, hcert.ne, not_false_eq_true,
        and_self, decide_true]
    rw [if_pos hboth, hkeyData, hcertData, if_neg (by simp [hkeyText, hcertText])]
  | refused hblank hpopulated hshort =>
    rw [if_neg (by simp [hpopulated]), if_pos hshort, if_pos hblank]

/-- The two texts come out as they went in, or the answer is refused because one
of them has nothing but line ends. -/
theorem keygenBuffers_body (hkey : TransferText 256 8192 key) (hcert : TransferText 128 4096 cert) :
    keygenBuffers (some estHttpBoundary) (keygenBody key cert) [] =
      some (if onlyWhitespace key ∨ onlyWhitespace cert then .error .multipartParse
        else .ok ⟨some key, some cert⟩) := by
  have hzero : (0 : UInt8) ∉ keygenBody key cert :=
    zero_not_mem_keygenBody (fun h => (hkey.bytes 0 h).ne.2.1 rfl) fun h => (hcert.bytes 0 h).ne.2.1 rfl
  have hsize : ¬ (key.length < estMinClientPkeyLen ∨ cert.length < estMinClientCertLen) := by
    have hkeyLow := hkey.low
    have hcertLow := hcert.low
    unfold estMinClientPkeyLen estMinClientCertLen
    omega
  rw [keygenBuffers, fromFirstBoundary_body, Option.map_some,
    parseRemaining_body (hkey.partData (by decide) (by decide))
      (hcert.partData (by decide) (by decide)) hzero]
  split_ifs <;> simp [hsize]

theorem keygenStream_length_lt (hkey : key.length ≤ 8192) (hcert : cert.length ≤ 4096) :
    (keygenStream key cert).length < estCaMax := by
  have hkeyHdr : pvtKeyHdr.length ≤ 1000 := by decide +kernel
  have hcertHdr : certHdr.length ≤ 1000 := by decide +kernel
  have hfinal : finalBndryHdr.length ≤ 1000 := by decide +kernel
  have hcontent : contentLength key cert < 10 ^ 5 := by
    unfold contentLength
    omega
  have hdecimal : (decimal (contentLength key cert)).length ≤ 5 :=
    numeral_length_le (by decide) (by decide) hcontent
  have hhttp : (httpHdr key cert).length ≤ 1000 := by
    have hfirst : (ascii "HTTP/1.1 200 OK\r\nStatus: 200 OK\r\n").length ≤ 100 := by decide +kernel
    have htype : (ascii "Content-Type: multipart/mixed; boundary=").length ≤ 100 := by decide +kernel
    have hboundary : estHttpBoundary.length ≤ 100 := by decide
    have hline : (ascii "\r\n").length ≤ 100 := by decide
    have hlength : (ascii "Content-Length: ").length ≤ 100 := by decide
    have hend : (ascii "\r\n\r\n").length ≤ 100 := by decide
    unfold httpHdr
    simp only [List.length_append]
    omega
  rw [keygenStream_eq, List.length_append, keygenBody_length, estCaMax]
  omega

/-- What the client makes of an answer that has the body in it, whatever its first
line says about the success and whatever length it gives. -/
theorem getResponse_answerLines (ctx : ClientCtx) (hkey : TransferText 256 8192 key)
    (hcert : TransferText 128 4096 cert) {first gap : Bytes} {length : Nat}
    (hfirst : ∀ c ∈ first, c ∉ lineEnd) (hgap : ∀ c ∈ gap, c ∈ lineEnd)
    (hstatus : estIoParseResponseStatusCode
      (answerLines first length gap (keygenBody key cert)) = 200)
    (hzero : (0 : UInt8) ∉ answerLines first length gap (keygenBody key cert))
    (hsize : (answerLines first length gap (keygenBody key cert)).length < estCaMax)
    {chunks : List Bytes} (hne : ∀ chunk ∈ chunks, chunk ≠ [])
    (hchunks : chunks.flatten = answerLines first length gap (keygenBody key cert)) :
    estIoGetResponseInternal ctx .serverKeygen (chunks.map some) =
      some ({ ctx with lastHttpStatus := 200 },
        if onlyWhitespace key ∨ onlyWhitespace cert then .error .multipartParse
        else .ok ⟨some key, some cert⟩) := by
  have hbody : (keygenBody key cert).head? = some 45 := by
    rw [keygenBody_eq]
    rfl
  have hsplit := parseAndSplit_answerLines hfirst
    (fun hmem => hzero (List.mem_append_left _ hmem)) length hgap hbody
  have hcons : answerLines first length gap (keygenBody key cert) ≠ [] := by
    simp [answerLines]
  generalize answerLines first length gap (keygenBody key cert) = stream at *
  have hraw : estIoReadRaw [] (chunks.map some) = .ok stream := by
    rw [estIoReadRaw_chunks hne [] (by rw [hchunks, List.length_nil, Nat.zero_add]; exact hsize.le),
      List.nil_append, hchunks]
  have hparse : parseResponse ctx .serverKeygen stream =
      some ({ ctx with lastHttpStatus := 200 },
        if onlyWhitespace key ∨ onlyWhitespace cert then .error .multipartParse
        else .ok ⟨some key, some cert⟩) := by
    rw [parseResponse, hstatus, cString_eq_self hzero]
    dsimp only
    rw [if_pos rfl, hsplit]
    dsimp only
    rw [if_pos rfl, List.drop_length, keygenBuffers_body hkey hcert, Option.map_some]
  rw [estIoGetResponseInternal, hraw]
  cases stream with
  | nil => exact absurd rfl hcons
  | cons c rest => exact hparse

/-- The answer that the client reads from the stream. -/
theorem getResponse_keygenStream (ctx : ClientCtx) (hkey : TransferText 256 8192 key)
    (hcert : TransferText 128 4096 cert) {chunks : List Bytes}
    (hne : ∀ chunk ∈ chunks, chunk ≠ []) (hchunks : chunks.flatten = keygenStream key cert) :
    estIoGetResponseInternal ctx .serverKeygen (chunks.map some) =
      some ({ ctx with lastHttpStatus := 200 },
        if onlyWhitespace key ∨ onlyWhitespace cert then .error .multipartParse
        else .ok ⟨some key, some cert⟩) := by
  have hstream : keygenStream key cert =
      answerLines (ascii "HTTP/1.1 200 OK") (contentLength key cert) [] (keygenBody key cert) := by
    rw [keygenStream_eq, httpHdr_append]
    rfl
  have hzero : (0 : UInt8) ∉ keygenStream key cert := by
    rw [keygenStream_eq, List.mem_append, not_or]
    exact ⟨zero_not_mem_httpHdr key cert, zero_not_mem_keygenBody
      (fun h => (hkey.bytes 0 h).ne.2.1 rfl) fun h => (hcert.bytes 0 h).ne.2.1 rfl⟩
  have hsize := keygenStream_length_lt hkey.high hcert.high
  rw [hstream] at hzero hsize hchunks
  exact getResponse_answerLines ctx hkey hcert (by decide) (by simp) rfl hzero hsize hne hchunks

/-- The header announces the length of the body, and the client has both texts
again. A text of line ends only is taken for a missing part. -/
theorem keygen_roundtrip (ctx : ClientCtx) (key cert : Bytes) (hkey : TransferText 256 8192 key)
    (hcert : TransferText 128 4096 cert) (chunks : List Bytes)
    (hne : ∀ chunk ∈ chunks, chunk ≠ []) (hchunks : chunks.flatten = (keygenWrites key cert).flatten) :
    Framed chunks.flatten (keygenBody key cert).length (keygenBody key cert) ∧
      (HasSymbol key ∧ HasSymbol cert →
        estIoGetResponseInternal ctx .serverKeygen (chunks.map some) =
          some ({ ctx with lastHttpStatus := 200 }, .ok ⟨some key, some cert⟩)) ∧
      (¬ (HasSymbol key ∧ HasSymbol cert) →
        estIoGetResponseInternal ctx .serverKeygen (chunks.map some) =
          some ({ ctx with lastHttpStatus := 200 }, .error .multipartParse)) := by
  have hresponse := getResponse_keygenStream ctx hkey hcert hne hchunks
  have hblank : (onlyWhitespace key = true ∨ onlyWhitespace cert = true) ↔
      ¬ (HasSymbol key ∧ HasSymbol cert) := by
    rw [← hkey.onlyWhitespace_iff, ← hcert.onlyWhitespace_iff]
    cases onlyWhitespace key <;> cases onlyWhitespace cert <;> simp
  refine ⟨?_, fun hsymbols => ?_, fun hsymbols => ?_⟩
  · rw [hchunks]
    exact framed_keygenStream key cert
  · rw [hresponse, if_neg fun h => hblank.mp h hsymbols]
  · rw [hresponse, if_pos (hblank.mpr hsymbols)]

/-- Six writes that arrive one by one. -/
theorem keygen_roundtrip_writes :
    estIoGetResponseInternal hostCtx .serverKeygen
        ((keygenWrites (List.replicate 256 65) (List.replicate 128 66)).map some) =
      some ({ hostCtx with lastHttpStatus := 200 },
        .ok ⟨some (List.replicate 256 65), some (List.replicate 128 66)⟩) := by
  have hkey : TransferText 256 8192 (List.replicate 256 65) :=
    transferText_replicate (.inl (by decide)) (by decide) (by decide)
  have hcert : TransferText 128 4096 (List.replicate 128 66) :=
    transferText_replicate (.inl (by decide)) (by decide) (by decide)
  apply (keygen_roundtrip hostCtx _ _ hkey hcert _ (by decide +kernel) rfl).2.1
  exact ⟨⟨65, by decide +kernel, by decide⟩, ⟨66, by decide +kernel, by decide⟩⟩

/-- A key of line feeds does not arrive. -/
theorem keygen_linefeeds_lost :
    ¬ ∀ (ctx : ClientCtx) (key cert : Bytes), TransferText 256 8192 key →
      TransferText 128 4096 cert → ∃ next,
        estIoGetResponseInternal ctx .serverKeygen ((keygenWrites key cert).map some) =
          some (next, .ok ⟨some key, some cert⟩) := by
  intro hall
  have hkey : TransferText 256 8192 (List.replicate 256 10) :=
    transferText_replicate (.inr (.inr (.inr rfl))) (by decide) (by decide)
  have hcert : TransferText 128 4096 (List.replicate 128 66) :=
    transferText_replicate (.inl (by decide)) (by decide) (by decide)
  obtain ⟨next, hnext⟩ := hall hostCtx _ _ hkey hcert
  rw [getResponse_keygenStream hostCtx hkey hcert (by decide +kernel) rfl,
    if_pos (.inl (by decide +kernel))] at hnext
  cases hnext

end RoundTrip

end LibEst.Client.KeygenRoundTrip
