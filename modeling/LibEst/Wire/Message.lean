import LibEst.Client.KeygenRoundTrip
import LibEst.Client.ResponseText

/-! A message by its lines: a first line, the lines of its fields, an empty line and a
body. Both sides write their messages so, and both read them with the same functions. -/
namespace LibEst.Wire.Message

open LibEst.Basic LibEst.Base64 LibEst.Lib.ByteString LibEst.SafeStr
open LibEst.Server.AuthHeader LibEst.Client.Context LibEst.Client.Http LibEst.Client.HeaderLines
open LibEst.Client.ResponseText
open LibEst.Client.KeygenRoundTrip (not_mem_decimal)

section Numbers

theorem digitByte_toNat {d : Nat} (h : d < 10) : (digitByte d).toNat = 48 + d := by
  rw [digitByte, if_pos h, UInt8.toNat_ofNat']
  omega

theorem isdigit_digitByte : ∀ d < 10, isdigit (digitByte d) = true := by decide

theorem digitsValue_digits {digits : List Nat} (h : ∀ d ∈ digits, d < 10) :
    digitsValue (digits.reverse.map digitByte) = Nat.ofDigits 10 digits := by
  unfold digitsValue
  induction digits with
  | nil => rfl
  | cons d digits ih =>
    rw [List.reverse_cons, List.map_append, List.foldl_append,
      ih fun e he => h e (List.mem_cons_of_mem d he), Nat.ofDigits_cons, List.map_singleton,
      List.foldl_cons, List.foldl_nil, digitByte_toNat (h d List.mem_cons_self)]
    omega

theorem digitsValue_decimal (n : Nat) : digitsValue (decimal n) = n := by
  unfold decimal numeral
  split
  · rename_i h
    rw [h]
    rfl
  · rw [digitsValue_digits fun d hd => Nat.digits_lt_base (by decide) hd, Nat.ofDigits_digits]

theorem isdigit_decimal (n : Nat) : ∀ c ∈ decimal n, isdigit c = true := by
  intro c hc
  unfold decimal numeral at hc
  split at hc
  · rw [List.mem_singleton.mp hc]
    exact isdigit_digitByte 0 (by decide)
  · obtain ⟨d, hd, rfl⟩ := List.mem_map.mp hc
    exact isdigit_digitByte d (Nat.digits_lt_base (by decide) (List.mem_reverse.mp hd))

theorem strtol_decimal {n : Nat} (h : n < 2 ^ 63) : strtol ((decimal n).dropWhile isspace) = n := by
  have hdigits := isdigit_decimal n
  have hvalue := digitsValue_decimal n
  have hne := decimal_ne_nil n
  generalize decimal n = text at hdigits hvalue hne
  cases text with
  | nil => exact absurd rfl hne
  | cons c rest =>
    have hc : isspace c = false ∧ c ≠ 45 ∧ c ≠ 43 := by
      have hdigit := hdigits c List.mem_cons_self
      refine ⟨?_, ?_, ?_⟩
      · by_contra hspace
        rw [Bool.not_eq_false] at hspace
        rw [isdigit, decide_eq_true_eq] at hdigit
        rw [isspace, decide_eq_true_eq] at hspace
        rcases hspace with rfl | hblank
        · exact absurd hdigit.1 (by decide)
        · exact absurd (UInt8.le_trans hdigit.1 hblank.2) (by decide)
      · rintro rfl
        exact absurd hdigit (by decide)
      · rintro rfl
        exact absurd hdigit (by decide)
    have htake : (c :: rest).takeWhile isdigit = c :: rest :=
      List.takeWhile_eq_self_iff.mpr hdigits
    rw [List.dropWhile_cons_of_neg (by rw [hc.1]; exact Bool.false_ne_true)]
    unfold strtol
    dsimp only
    split
    · rename_i heq
      exact absurd (List.cons.inj heq).1 hc.2.1
    · rename_i heq
      exact absurd (List.cons.inj heq).1 hc.2.2
    · rw [htake, hvalue]
      omega

theorem atoi_decimal {n : Nat} (h : n < 2 ^ 31) : atoi (decimal n) = n := by
  rw [atoi, strtol_decimal (by omega), toInt32]
  omega

end Numbers

section Fields

variable {name : String} {value : Bytes}

/-- A name that a field can have. -/
def IsName (name : String) : Prop := ascii name ≠ [] ∧ ∀ c ∈ ascii name, c ≠ 58 ∧ LineByte c

instance (name : String) : Decidable (IsName name) :=
  inferInstanceAs (Decidable (ascii name ≠ [] ∧ ∀ c ∈ ascii name, c ≠ 58 ∧ LineByte c))

theorem isName_ofList {chars : List Char}
    (h : chars ≠ [] ∧ ∀ c ∈ chars.map fun c => UInt8.ofNat c.toNat, c ≠ 58 ∧ LineByte c) :
    IsName (String.ofList chars) := by
  unfold IsName
  rw [ascii_ofList]
  exact ⟨fun hnil => h.1 (List.map_eq_nil_iff.mp hnil), h.2⟩

/-- A literal with a name and a colon, and one with a value behind them. -/
theorem ascii_named {whole name : List Char} (h : whole = name ++ [':', ' ']) :
    ascii (String.ofList whole) = ascii (String.ofList name) ++ [58, 32] := by
  rw [ascii_ofList, ascii_ofList, h, List.map_append]
  rfl

theorem ascii_assigned {whole name value : List Char} (h : whole = name ++ ':' :: ' ' :: value) :
    ascii (String.ofList whole) = ascii (String.ofList name) ++ 58 :: 32 :: ascii (String.ofList value) := by
  rw [ascii_ofList, ascii_ofList, ascii_ofList, h, List.map_append]
  rfl

theorem isName_status : IsName "Status" := isName_ofList (by decide)
theorem isName_contentType : IsName "Content-Type" := isName_ofList (by decide)
theorem isName_contentLength : IsName "Content-Length" := isName_ofList (by decide)
theorem isName_connection : IsName "Connection" := isName_ofList (by decide)

/-- A field with one space in front of its value. -/
def field (name : String) (value : Bytes) (hname : IsName name) (hvalue : ∀ c ∈ value, LineByte c) :
    Field where
  name := ascii name
  text := 32 :: value
  nameNe := hname.1
  nameLine := hname.2
  textLine := by
    intro c hc
    rcases List.mem_cons.mp hc with rfl | hmem
    · decide
    · exact hvalue c hmem

theorem field_header (hname : IsName name) (hvalue : ∀ c ∈ value, LineByte c)
    (hfront : value.head? ≠ some 32) : (field name value hname hvalue).header = ⟨ascii name, value⟩ := by
  have hspace : (32 :: value).dropWhile (· = 32) = value := by
    rw [List.dropWhile_cons_of_pos (by decide)]
    cases value with
    | nil => rfl
    | cons c value => exact List.dropWhile_cons_of_neg (by simpa using hfront)
  rw [Field.header, field, hspace]

theorem lineByte_append {front back : Bytes} (hfront : ∀ c ∈ front, LineByte c)
    (hback : ∀ c ∈ back, LineByte c) : ∀ c ∈ front ++ back, LineByte c := by
  intro c hc
  rcases List.mem_append.mp hc with h | h
  · exact hfront c h
  · exact hback c h

theorem lineByte_decimal (n : Nat) : ∀ c ∈ decimal n, LineByte c := by
  intro c hc
  refine ⟨fun hmem => ?_, ?_⟩
  · rw [lineEnd, List.mem_cons, List.mem_singleton] at hmem
    rcases hmem with rfl | rfl
    · exact not_mem_decimal (by decide) n hc
    · exact not_mem_decimal (by decide) n hc
  · rintro rfl
    exact not_mem_decimal (by decide) n hc

theorem decimal_front (n : Nat) : (decimal n).head? ≠ some 32 :=
  fun h => not_mem_decimal (by decide) n (List.mem_of_mem_head? h)

end Fields

section Lines

variable {line : Bytes} {fields : List Field} {body : Bytes}

def message (line : Bytes) (fields : List Field) (body : Bytes) : Bytes :=
  line ++ 13 :: 10 :: fieldLines fields body

theorem field_length {name : String} {value : Bytes} (hname : IsName name)
    (hvalue : ∀ c ∈ value, LineByte c) :
    (field name value hname hvalue).line.length = (ascii name).length + value.length + 4 := by
  simp only [Field.line, field, lineEnd, List.length_append, List.length_cons, List.length_nil]
  omega

theorem message_length :
    (message line fields body).length =
      line.length + (fields.flatMap Field.line).length + body.length + 4 := by
  simp only [message, fieldLines, lineEnd, List.length_append, List.length_cons, List.length_nil]
  omega

theorem message_ne_nil : message line fields body ≠ [] := by simp [message]

theorem cString_message (hline : ∀ c ∈ line, LineByte c) :
    cString (message line fields body) = message line fields (cString body) := by
  have hzero : (0 : UInt8) ∉ line := fun h => (hline 0 h).2 rfl
  have hbreak : ∀ rest, (13 : UInt8) :: 10 :: rest = lineEnd ++ rest := fun rest => rfl
  rw [message, message, cString_front hzero, hbreak, cString_front (by decide), cString_fieldLines]
  rfl

theorem strstr_message (hline : ∀ c ∈ line, LineByte c) :
    strstr headerDelimiter (message line fields body) = some (headerDelimiter ++ body) :=
  strstr_fieldLines (fun h => (hline 13 h).1 (by decide)) fields body

/-- Behind the first line stand the fields. -/
theorem skip_message (hline : ∀ c ∈ line, LineByte c) (hfields : fields ≠ []) :
    skip lineEnd (message line fields body) = (line, fieldLines fields body) := by
  rw [message, skip_line (fun c hc => (hline c hc).1) fun h => (hline 0 h).2 rfl]
  cases fields with
  | nil => exact absurd rfl hfields
  | cons f fields => rw [dropWhile_fieldLines]

theorem parseHttpHeaders_message (hline : ∀ c ∈ line, LineByte c) (hfields : fields ≠ [])
    (hle : fields.length ≤ maxHeaders) :
    parseHttpHeaders (message line fields body) = (fields.map Field.header, unbroken body) := by
  rw [parseHttpHeaders, strstr_message hline, skip_message hline hfields]
  cases fields with
  | nil => exact absurd rfl hfields
  | cons f fields => exact parseHeaderLoop_fields f fields body hle

/-- A value that does not speak of parts. -/
def Silent (f : Field) : Prop := scanBoundary f.header.value = .silent

theorem dropWhile_feed (f : Field) (rest : Bytes) :
    (fieldLines (f :: fields) rest).dropWhile (· = 10) = fieldLines (f :: fields) rest := by
  obtain ⟨c, hhead, hc⟩ := fieldLines_head f fields rest
  cases hlines : fieldLines (f :: fields) rest with
  | nil => rfl
  | cons d lines =>
    rw [hlines] at hhead
    cases hhead
    apply List.dropWhile_cons_of_neg
    rw [decide_eq_true_eq]
    rintro rfl
    exact hc (by decide)

/-- The headers of a key generation answer that has no parts. -/
theorem parseKeygenLoop_fields (f : Field) (fields : List Field) (rest : Bytes)
    (hsilent : ∀ g ∈ f :: fields, Silent g) {n : Nat} (hn : fields.length < n) :
    parseKeygenLoop (some (headerDelimiter ++ rest)) none n (fieldLines (f :: fields) rest) =
      some ((f :: fields).map Field.header, none, unbroken rest) := by
  induction fields generalizing f n with
  | nil =>
    cases n with
    | zero => omega
    | succ n =>
      have hlast : (10 :: fieldLines [] rest).dropWhile (· ∈ lineEnd) = unbroken rest := rfl
      have hbehind : behindHeaders (some (headerDelimiter ++ rest)) (unbroken rest) = true := by
        have hle := (List.dropWhile_suffix (l := rest) (· ∈ lineEnd)).length_le
        rw [behindHeaders, decide_eq_true_eq, List.length_append]
        exact Nat.lt_of_le_of_lt hle (by simp [headerDelimiter])
      have hscan : scanBoundary f.header.value = .silent := hsilent f (by simp)
      rw [parseKeygenLoop, dropWhile_feed, fieldLines_cons, f.parseHeader, hlast]
      dsimp only
      rw [hscan]
      dsimp only
      rw [if_neg f.header_name_ne, if_pos hbehind]
      rfl
  | cons g fields ih =>
    cases n with
    | zero => omega
    | succ n =>
      have hbehind : behindHeaders (some (headerDelimiter ++ rest)) (fieldLines (g :: fields) rest) =
          false := by
        rw [behindHeaders, decide_eq_false_iff_not, fieldLines]
        simp only [List.flatMap_cons, Field.line, headerDelimiter, lineEnd, List.length_append,
          List.length_cons, List.length_nil]
        omega
      have hscan : scanBoundary f.header.value = .silent := hsilent f (by simp)
      have hrest := ih g (fun h hh => hsilent h (by simp [List.mem_cons.mp hh]))
        (Nat.lt_of_succ_lt_succ hn)
      rw [parseKeygenLoop, dropWhile_feed, fieldLines_cons, f.parseHeader, dropWhile_fieldLines]
      dsimp only
      rw [hscan]
      dsimp only
      rw [if_neg f.header_name_ne, if_neg (by simp [hbehind]), hrest]
      rfl

theorem parseAndSplit_message (hline : ∀ c ∈ line, LineByte c) (hfields : fields ≠ [])
    (hle : fields.length ≤ maxHeaders) (hsilent : ∀ f ∈ fields, Silent f) :
    parseAndSplitKeygenRsp (message line fields body) =
      some (fields.map Field.header, none, unbroken body) := by
  rw [parseAndSplitKeygenRsp, strstr_message hline, skip_message hline hfields]
  cases fields with
  | nil => exact absurd rfl hfields
  | cons f fields => exact parseKeygenLoop_fields f fields body hsilent hle

end Lines

section Reading

variable {chunks : List Bytes} {text : Bytes}

/-- However the text is cut into reads, the client parses it as a whole. -/
theorem getResponse_chunks (ctx : ClientCtx) (op : EstOperation) (hne : ∀ chunk ∈ chunks, chunk ≠ [])
    (hchunks : chunks.flatten = text) (htext : text ≠ []) (hsize : text.length ≤ estCaMax) :
    estIoGetResponseInternal ctx op (chunks.map some) = parseResponse ctx op text := by
  have hread : estIoReadRaw [] (chunks.map some) = .ok text := by
    rw [estIoReadRaw_chunks hne [] (by rw [hchunks, List.length_nil, Nat.zero_add]; exact hsize),
      List.nil_append, hchunks]
  rw [estIoGetResponseInternal, hread]
  cases text with
  | nil => exact absurd rfl htext
  | cons c rest => rfl

end Reading

end LibEst.Wire.Message
