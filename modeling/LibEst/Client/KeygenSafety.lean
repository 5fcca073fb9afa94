import LibEst.Client.MultipartAccess

/-! Any answer to a key generation request: whether the client stays inside of its
buffers while it parses the answer, and what it hands out then. -/
namespace LibEst.Client.KeygenSafety

open LibEst.Basic LibEst.Lib.ByteString LibEst.Lib.Loop LibEst.SafeStr LibEst.Server.AuthHeader
open LibEst.Client.Context LibEst.Client.Http LibEst.Client.Multipart LibEst.Client.MultipartAccess

section Runs

variable {buf body boundary : Bytes} {len limit : Nat} {x : Cursor}

/-- The parser comes to this cursor. -/
def Comes (buf : Bytes) (len : Nat) (boundary : Bytes) (x : Cursor) : Prop :=
  Reaches (turn buf len) (firstCursor (multipartParserInit boundary)) x

theorem inv_first : Inv len body boundary (firstCursor (multipartParserInit boundary)) :=
  ⟨⟨rfl, Nat.zero_le _, rfl⟩, le_refl _, fun _ => ⟨List.nil_infix, List.nil_infix⟩,
    fun _ => trivial⟩

theorem inv_of_guards (hne : boundary ≠ []) (hbuf : buf <:+ body) (hlimit : limit ≤ buf.length + 1)
    (hguard : ∀ x, Comes buf len boundary x → Inv len body boundary x → x.i < len →
      Guard buf len limit x)
    (hx : Comes buf len boundary x) : Inv len body boundary x := by
  apply Reaches.keeps inv_first ?_ hguard hx
  intro s next hinv hsafe hmore
  have hkeeps := turn_keeps hne hbuf hlimit hinv hsafe
  rw [hmore] at hkeeps
  exact hkeeps

/-- All turns touch only what is inside exactly where all of them meet the condition. -/
theorem inside_iff_guards (hne : boundary ≠ []) (hfits : boundary.length < maxBoundary)
    (hlimit : limit ≤ buf.length + 1) :
    (∀ x, Comes buf len boundary x → AllInside limit (accesses buf len x)) ↔
      ∀ x, Comes buf len boundary x → x.i < len → Guard buf len limit x := by
  have hbuf : buf <:+ buf := List.suffix_refl buf
  constructor
  · intro hinside x hx hlen
    have hguard (y : Cursor) (hy : Comes buf len boundary y) (hinv : Inv len buf boundary y)
        (hlen : y.i < len) : Guard buf len limit y :=
      (accesses_inside_iff hfits hinv hlen).mp (hinside y hy)
    exact hguard x hx (inv_of_guards hne hbuf hlimit hguard hx) hlen
  · intro hguard x hx
    by_cases hlen : x.i < len
    · have hinv := inv_of_guards hne hbuf hlimit (fun y hy _ => hguard y hy) hx
      exact (accesses_inside_iff hfits hinv hlen).mpr (hguard x hx hlen)
    · rw [accesses, if_pos (Nat.le_of_not_lt hlen)]
      exact allInside_nil

/-- The parser from the first cursor on. -/
def parsed (buf : Bytes) (len : Nat) (boundary : Bytes) : Parsed :=
  loopTotal (turn buf len) (remaining len) (turn_shrinks buf len)
    (firstCursor (multipartParserInit boundary))

/-- The turn with the last byte, if it completes the answer, ends the loop. -/
theorem partData_stops (hmissing : bothPopulated x.parser = false)
    (hends : endsPart buf x.i = false) (hlast : x.i + 1 = len)
    (hdelivers : Delivers (partDataCb x.parser (markedLast buf x)).2) :
    partData buf len x = .stop (x.i, (partDataCb x.parser (markedLast buf x)).2) := by
  have hdone := partDataCb_done hmissing (markedLast buf x)
  unfold partData emitPartData
  rw [if_neg (by rw [hends]; exact Bool.false_ne_true), if_pos hlast]
  generalize partDataCb x.parser (markedLast buf x) = result at hdone hdelivers
  obtain ⟨stop, p⟩ := result
  cases stop with
  | true => rfl
  | false =>
    have hboth := hdelivers.1
    rw [(hdone.2 rfl).1] at hboth
    cases hboth

theorem lastInBody_of_post (hmissing : bothPopulated x.parser = false)
    (hresult : ∀ r, partData buf len x = .stop r → Post body r) : LastInBody buf len body x := by
  intro hends hlast hdelivers
  have hkept := hresult _ (partData_stops hmissing hends hlast hdelivers) hdelivers
  rcases (partDataCb_done hmissing (markedLast buf x)).1.fresh hdelivers.1 with hkey | hcert
  · exact hkey ▸ hkept.1
  · exact hcert ▸ hkept.2

/-- Where the answer comes from the body, so does the part that completes it. -/
theorem clean_of_post (hsound : Sound boundary x.parser) (hx : Comes buf len boundary x)
    (hpost : Post body (parsed buf len boundary)) : Clean buf len body x x.parser.state := by
  have hturn (r : Parsed) (hlen : x.i < len) (hstop : stateTurn buf len x x.parser.state = .stop r) :
      Post body r := by
    have hresult : parsed buf len boundary = r := by
      apply loopTotal_of_reaches (turn_shrinks buf len) hx
      rw [turn, if_neg (Nat.not_le_of_lt hlen), hstop]
    exact hresult ▸ hpost
  cases hcase : x.parser.state with
  | partDataStart =>
    intro hends hlast
    rw [hcase] at hturn
    have hlen : x.i < len := Nat.lt_of_lt_of_eq (Nat.lt_succ_self _) hlast
    exact lastInBody_of_post (x := { x with mark := x.i }) hsound.missing
      (fun r => hturn r hlen) hends hlast
  | partData =>
    intro hends hlast
    rw [hcase] at hturn
    have hlen : x.i < len := Nat.lt_of_lt_of_eq (Nat.lt_succ_self _) hlast
    exact lastInBody_of_post hsound.missing (fun r => hturn r hlen) hends hlast
  | start | startBoundary | headerFieldStart | headerField | headersAlmostDone | headerValueStart
    | headerValue | headerValueAlmostDone | partDataAlmostBoundary | partDataBoundary
    | partDataAlmostEnd | partDataEnd | partDataFinalHyphen | «end» => trivial

/-- What the parser hands out comes from the body, where every turn meets the condition
and the last one is clean. -/
theorem post_of_clean (hne : boundary ≠ []) (hbuf : buf <:+ body) (hlimit : limit ≤ buf.length + 1)
    (hguard : ∀ x, Comes buf len boundary x → x.i < len → Guard buf len limit x)
    (hclean : ∀ x, Comes buf len boundary x → Clean buf len body x x.parser.state) :
    Post body (parsed buf len boundary) := by
  obtain ⟨last, result, hlast, hstop⟩ := reaches_stop (turn_shrinks buf len)
    (firstCursor (multipartParserInit boundary))
  have hinv := inv_of_guards hne hbuf hlimit (fun y hy _ => hguard y hy) hlast
  have hkeeps := turn_keeps hne hbuf hlimit hinv (hguard last hlast)
  rw [hstop] at hkeeps
  rw [parsed, loopTotal_of_reaches (turn_shrinks buf len) hlast hstop]
  exact hkeeps (hclean last hlast)

end Runs

section Suffixes

theorem scanWord_suffix (delimiters : Bytes) (quote : UInt8) (word text : Bytes) :
    (scanWord delimiters quote word text).2 <:+ text := by
  induction text generalizing word with
  | nil => exact List.nil_suffix
  | cons c rest ih =>
    rw [scanWord]
    split
    · split
      · exact (ih _).trans (List.suffix_cons c rest)
      · exact List.suffix_refl _
    · exact (ih _).trans (List.suffix_cons c rest)

theorem skipQuoted_suffix (delimiters whitespace : Bytes) (quote : UInt8) (text : Bytes) :
    (skipQuoted delimiters whitespace quote text).2 <:+ text := by
  have hscan := scanWord_suffix delimiters quote [] text
  unfold skipQuoted
  split
  · exact List.nil_suffix
  · rename_i word d rest heq
    rw [heq] at hscan
    exact (List.dropWhile_suffix _).trans ((List.suffix_cons d rest).trans hscan)

theorem parseHeader_suffix (text : Bytes) : (parseHeader text).2 <:+ text :=
  (skipQuoted_suffix lineEnd lineEnd 0 _).trans (skipQuoted_suffix (ascii ":") (ascii " ") 0 text)

theorem scanBoundary_ne_nil {value boundary left : Bytes}
    (h : scanBoundary value = .found boundary left) : boundary ≠ [] := by
  unfold scanBoundary at h
  split at h
  · cases h
  · split at h
    · cases h
    · split at h
      · cases h
      · dsimp only at h
        split at h
        · cases h
        · rename_i hvalid
          cases h
          exact fun hnil => hvalid (.inl hnil)

/-- What is left of the text is behind it, and a boundary that is found is not empty. -/
theorem parseKeygenLoop_result {delimiter found boundary : Option Bytes} {n : Nat}
    {text payload : Bytes} {hdrs : List HttpHeader} (hfound : found ≠ some [])
    (h : parseKeygenLoop delimiter found n text = some (hdrs, boundary, payload)) :
    payload <:+ text ∧ boundary ≠ some [] := by
  induction n generalizing found text hdrs with
  | zero =>
    cases h
    exact ⟨List.suffix_refl _, hfound⟩
  | succ n ih =>
    have hrest : (parseHeader (text.dropWhile (· = 10))).2 <:+ text :=
      (parseHeader_suffix _).trans (List.dropWhile_suffix _)
    rw [parseKeygenLoop] at h
    generalize parseHeader (text.dropWhile (· = 10)) = header at h hrest
    obtain ⟨hdr, rest⟩ := header
    have hnext (next : HttpHeader) {named : Option Bytes} (hnamed : named ≠ some [])
        (h : (if next.name = [] then some ([], named, rest)
          else if behindHeaders delimiter rest then some ([next], named, rest)
          else (parseKeygenLoop delimiter named n rest).map fun more =>
            (next :: more.1, more.2.1, more.2.2)) = some (hdrs, boundary, payload)) :
        payload <:+ text ∧ boundary ≠ some [] := by
      split at h
      · cases h
        exact ⟨hrest, hnamed⟩
      · split at h
        · cases h
          exact ⟨hrest, hnamed⟩
        · rw [Option.map_eq_some_iff] at h
          obtain ⟨⟨more, last, left⟩, hloop, hsame⟩ := h
          cases hsame
          obtain ⟨hsuffix, hne⟩ := ih hnamed hloop
          exact ⟨hsuffix.trans hrest, hne⟩
    dsimp only at h
    split at h
    · exact hnext hdr hfound h
    · rename_i named left hscan
      exact hnext { hdr with value := left } (fun hnil => scanBoundary_ne_nil hscan (Option.some.inj hnil)) h
    · cases h

theorem split_result {text payload : Bytes} {boundary : Option Bytes} {hdrs : List HttpHeader}
    (h : parseAndSplitKeygenRsp text = some (hdrs, boundary, payload)) :
    payload <:+ text ∧ boundary ≠ some [] := by
  have hnone : (none : Option Bytes) ≠ some [] := by simp
  obtain ⟨hsuffix, hne⟩ := parseKeygenLoop_result hnone h
  exact ⟨hsuffix.trans (skipQuoted_suffix lineEnd lineEnd 0 text), hne⟩

end Suffixes

section Answer

/-- What is behind the text of an answer. -/
def behindText (raw : Bytes) : Bytes := raw.drop (cString raw).length

theorem cString_behindText (raw : Bytes) : cString raw ++ behindText raw = raw := by
  rw [behindText, cString]
  nth_rewrite 1 [List.prefix_iff_eq_take.mp (List.takeWhile_prefix (· ≠ 0) (l := raw))]
  exact List.take_append_drop _ raw

/-- The buffer for an answer is cleared before, so that a zero is behind what is received
unless it is full. -/
def terminators (raw : Bytes) : Nat := if raw.length < estCaMax then 1 else 0

/-- The text that the parser reads ends inside of the buffer. -/
def Terminated (raw : Bytes) : Prop := raw.length < estCaMax ∨ 0 ∈ raw

/-- The answer is successful and has these three parts. -/
structure Split (raw : Bytes) (hdrs : List HttpHeader) (boundary : Option Bytes)
    (payload : Bytes) : Prop where
  status : estIoParseResponseStatusCode raw = 200
  parts : parseAndSplitKeygenRsp (cString raw) = some (hdrs, boundary, payload)

/-- Where the parser begins, and how many places with received bytes and a zero there
are from there on. -/
def parserBuf (memory : Bytes) : Bytes := memory.dropWhile (· = 45)

def places (raw memory : Bytes) : Nat := (parserBuf memory).length + terminators raw

variable {raw payload boundary memory : Bytes} {hdrs : List HttpHeader}

/-- The body is the end of the answer, and the parser reads from somewhere in it. -/
theorem body_suffix {found : Option Bytes} (h : Split raw hdrs found payload) :
    payload ++ behindText raw <:+ raw := by
  have hsuffix := (split_result h.parts).1
  obtain ⟨front, hfront⟩ := hsuffix
  refine ⟨front, ?_⟩
  rw [← List.append_assoc, hfront, cString_behindText]

theorem parserBuf_suffix
    (h : fromFirstBoundary boundary payload (behindText raw) = some memory) :
    parserBuf memory <:+ payload ++ behindText raw := by
  apply (List.dropWhile_suffix _).trans
  rw [fromFirstBoundary, Option.map_eq_some_iff] at h
  obtain ⟨fromBoundary, _, hmemory⟩ := h
  rw [← hmemory]
  dsimp only
  split
  · exact List.nil_suffix
  · exact List.drop_suffix _ _

/-- A key and a certificate that are parts of the received body, or an error. -/
def Delivered (raw : Bytes) (result : Except EstError Buffers) : Prop :=
  ∀ buffers, result = .ok buffers → ∃ key cert hdrs boundary payload,
    buffers = ⟨some key, some cert⟩ ∧ Split raw hdrs boundary payload ∧
      key <:+: payload ++ behindText raw ∧ cert <:+: payload ++ behindText raw

/-- The answer is processed safely. -/
structure Safe (ctx : ClientCtx) (raw : Bytes) : Prop where
  terminated : Terminated raw
  copied : ∀ hdrs boundary payload, Split raw hdrs (some boundary) payload →
    boundary.length < maxBoundary
  inside : ∀ hdrs boundary payload memory, Split raw hdrs (some boundary) payload →
    fromFirstBoundary boundary payload (behindText raw) = some memory →
    ∀ x, Comes (parserBuf memory) (cString memory).length boundary x →
      AllInside (places raw memory) (accesses (parserBuf memory) (cString memory).length x)
  answered : ∃ after result, parseResponse ctx .serverKeygen raw = some (after, result) ∧
    Delivered raw result

/-- The condition on an answer. A successful one names a boundary that its array holds with
the zero, and has it in its payload. -/
structure Guarded (raw : Bytes) : Prop where
  terminated : Terminated raw
  named : ∀ hdrs found payload, Split raw hdrs found payload →
    ∃ boundary fromBoundary, found = some boundary ∧ boundary.length < maxBoundary ∧
      strstr boundary payload = some fromBoundary
  turns : ∀ hdrs boundary payload memory, Split raw hdrs (some boundary) payload →
    fromFirstBoundary boundary payload (behindText raw) = some memory →
    ∀ x, Comes (parserBuf memory) (cString memory).length boundary x →
      (x.i < (cString memory).length →
        Guard (parserBuf memory) (cString memory).length (places raw memory) x) ∧
      Clean (parserBuf memory) (cString memory).length (payload ++ behindText raw) x x.parser.state

theorem terminators_le (raw : Bytes) : terminators raw ≤ 1 := by
  unfold terminators
  split
  · exact le_refl 1
  · exact Nat.zero_le 1

theorem places_le (raw memory : Bytes) : places raw memory ≤ (parserBuf memory).length + 1 :=
  Nat.add_le_add_left (terminators_le raw) _

/-- The parser once it is through with an answer. -/
def finalParser (memory boundary : Bytes) : Parser :=
  (parsed (parserBuf memory) (cString memory).length boundary).2

def texts (p : Parser) : Buffers := ⟨some p.keyData, some p.certData⟩

theorem parseRemainingMultipartPayload_eq (memory boundary : Bytes) :
    parseRemainingMultipartPayload memory boundary =
      if bothPopulated (finalParser memory boundary) then
        .ok ((finalParser memory boundary).keyData, (finalParser memory boundary).certData)
      else .error (if (parsed (parserBuf memory) (cString memory).length boundary).1 <
        (cString memory).length then .multipartParse else .zeroLengthBuf) := rfl

/-- The texts of the parser are handed out if they are both there and long enough. -/
theorem keygenBuffers_ok_iff {behind : Bytes} {buffers : Buffers}
    (hmemory : fromFirstBoundary boundary payload behind = some memory) :
    keygenBuffers (some boundary) payload behind = some (.ok buffers) ↔
      Delivers (finalParser memory boundary) ∧ buffers = texts (finalParser memory boundary) := by
  unfold keygenBuffers
  dsimp only
  rw [hmemory, Option.map_some, Option.some.injEq, parseRemainingMultipartPayload_eq]
  generalize finalParser memory boundary = p
  unfold Delivers
  cases hboth : bothPopulated p with
  | false =>
    rw [if_neg Bool.false_ne_true]
    refine ⟨fun h => ?_, fun h => absurd h.1.1 Bool.false_ne_true⟩
    cases h
  | true =>
    rw [if_pos rfl]
    dsimp only
    split
    · rename_i hshort
      refine ⟨fun h => ?_, fun h => ?_⟩
      · cases h
      · omega
    · rename_i hlong
      rw [not_or, Nat.not_lt, Nat.not_lt] at hlong
      rw [and_iff_right ⟨rfl, hlong⟩, Except.ok.injEq, eq_comm]
      rfl

theorem keygenBuffers_isSome (hmemory : fromFirstBoundary boundary payload behind = some memory) :
    ∃ result, keygenBuffers (some boundary) payload behind = some result := by
  unfold keygenBuffers
  dsimp only
  rw [hmemory]
  exact ⟨_, rfl⟩

theorem parseResponse_split (ctx : ClientCtx) {found : Option Bytes}
    (h : Split raw hdrs found payload) :
    ∃ after, parseResponse ctx .serverKeygen raw =
      (keygenBuffers found payload (behindText raw)).map fun result => (after, result) := by
  refine ⟨{ ctx with lastHttpStatus := estIoParseResponseStatusCode raw }, ?_⟩
  unfold parseResponse
  dsimp only
  rw [if_pos rfl, h.parts]
  dsimp only
  rw [if_pos h.status]
  rfl

theorem parseResponse_other (ctx : ClientCtx)
    (h : ∀ hdrs found payload, ¬ Split raw hdrs found payload) :
    ∃ after rv, parseResponse ctx .serverKeygen raw = some (after, .error rv) := by
  unfold parseResponse
  dsimp only
  rw [if_pos rfl]
  split
  · exact ⟨_, _, rfl⟩
  · rename_i hdrs found payload hparts
    rw [if_neg fun hstatus => h hdrs found payload ⟨hstatus, hparts⟩]
    exact ⟨_, _, rfl⟩

theorem Split.unique {found found' : Option Bytes} {payload' : Bytes} {hdrs' : List HttpHeader}
    (h : Split raw hdrs found payload) (h' : Split raw hdrs' found' payload') :
    found' = found ∧ payload' = payload := by
  have hparts := h.parts.symm.trans h'.parts
  cases hparts
  exact ⟨rfl, rfl⟩

theorem boundary_ne_nil (h : Split raw hdrs (some boundary) payload) : boundary ≠ [] :=
  fun hnil => (split_result h.parts).2 (congrArg some hnil)

theorem memory_of_found (behind : Bytes) {fromBoundary : Bytes}
    (h : strstr boundary payload = some fromBoundary) :
    ∃ memory, fromFirstBoundary boundary payload behind = some memory := by
  unfold fromFirstBoundary
  rw [h]
  exact ⟨_, rfl⟩

theorem delivered_error (rv : EstError) : Delivered raw (.error rv) := by
  intro buffers h
  cases h

/-- A guarded answer is processed safely. -/
theorem safe_of_guarded (ctx : ClientCtx) (h : Guarded raw) : Safe ctx raw := by
  have hinside (hdrs : List HttpHeader) (boundary payload memory : Bytes)
      (hsplit : Split raw hdrs (some boundary) payload)
      (hmemory : fromFirstBoundary boundary payload (behindText raw) = some memory) :
      boundary.length < maxBoundary ∧
        Post (payload ++ behindText raw) (parsed (parserBuf memory) (cString memory).length boundary) ∧
        ∀ x, Comes (parserBuf memory) (cString memory).length boundary x →
          AllInside (places raw memory)
            (accesses (parserBuf memory) (cString memory).length x) := by
    obtain ⟨named, _, hnamed, hfits, _⟩ := h.named hdrs _ payload hsplit
    cases hnamed
    have hne := boundary_ne_nil hsplit
    have hturns := h.turns hdrs boundary payload memory hsplit hmemory
    have hguards (x : Cursor) (hx : Comes (parserBuf memory) (cString memory).length boundary x) :=
      (hturns x hx).1
    refine ⟨hfits, ?_, (inside_iff_guards hne hfits (places_le raw memory)).mpr hguards⟩
    exact post_of_clean hne (parserBuf_suffix hmemory) (places_le raw memory) hguards
      fun x hx => (hturns x hx).2
  refine ⟨h.terminated, ?_, ?_, ?_⟩
  · intro hdrs boundary payload hsplit
    obtain ⟨named, _, hnamed, hfits, _⟩ := h.named hdrs _ payload hsplit
    cases hnamed
    exact hfits
  · intro hdrs boundary payload memory hsplit hmemory
    exact (hinside hdrs boundary payload memory hsplit hmemory).2.2
  · by_cases hsuccess : ∃ hdrs found payload, Split raw hdrs found payload
    · obtain ⟨hdrs, found, payload, hsplit⟩ := hsuccess
      obtain ⟨boundary, fromBoundary, hfound, _, hstrstr⟩ := h.named hdrs found payload hsplit
      subst hfound
      obtain ⟨memory, hmemory⟩ := memory_of_found (behindText raw) hstrstr
      obtain ⟨result, hresult⟩ := keygenBuffers_isSome hmemory
      obtain ⟨after, hanswer⟩ := parseResponse_split ctx hsplit
      rw [hresult] at hanswer
      refine ⟨after, result, hanswer, ?_⟩
      intro buffers hok
      subst hok
      obtain ⟨hdelivers, htexts⟩ := (keygenBuffers_ok_iff hmemory).mp hresult
      have hkept := (hinside hdrs boundary payload memory hsplit hmemory).2.1 hdelivers
      exact ⟨_, _, hdrs, some boundary, payload, htexts, hsplit, hkept.1, hkept.2⟩
    · have hnone (hdrs : List HttpHeader) (found : Option Bytes) (payload : Bytes) :
          ¬ Split raw hdrs found payload := fun hsplit => hsuccess ⟨_, _, _, hsplit⟩
      obtain ⟨after, rv, hanswer⟩ := parseResponse_other ctx hnone
      exact ⟨after, _, hanswer, delivered_error rv⟩

/-- A boundary that is not in the payload leaves the processing undefined, and without one
there is neither an error nor a key. -/
theorem named_of_safe {ctx : ClientCtx} (h : Safe ctx raw) {found : Option Bytes}
    (hsplit : Split raw hdrs found payload) :
    ∃ boundary fromBoundary, found = some boundary ∧ boundary.length < maxBoundary ∧
      strstr boundary payload = some fromBoundary := by
  obtain ⟨after, result, hanswer, hdelivered⟩ := h.answered
  obtain ⟨after', hsplits⟩ := parseResponse_split ctx hsplit
  rw [hsplits, Option.map_eq_some_iff] at hanswer
  obtain ⟨result', hbuffers, hsame⟩ := hanswer
  cases hsame
  cases found with
  | none =>
    cases hbuffers
    obtain ⟨key, cert, _, _, _, hnone, _⟩ := hdelivered _ rfl
    cases hnone
  | some boundary =>
    have hfits := h.copied hdrs boundary payload hsplit
    unfold keygenBuffers at hbuffers
    dsimp only at hbuffers
    rw [Option.map_eq_some_iff] at hbuffers
    obtain ⟨memory, hmemory, _⟩ := hbuffers
    rw [fromFirstBoundary, Option.map_eq_some_iff] at hmemory
    obtain ⟨fromBoundary, hstrstr, _⟩ := hmemory
    exact ⟨boundary, fromBoundary, rfl, hfits, hstrstr⟩

theorem post_of_safe {ctx : ClientCtx} (h : Safe ctx raw)
    (hsplit : Split raw hdrs (some boundary) payload)
    (hmemory : fromFirstBoundary boundary payload (behindText raw) = some memory) :
    Post (payload ++ behindText raw)
      (parsed (parserBuf memory) (cString memory).length boundary) := by
  intro hdelivers
  obtain ⟨after, result, hanswer, hdelivered⟩ := h.answered
  obtain ⟨after', hsplits⟩ := parseResponse_split ctx hsplit
  rw [hsplits, (keygenBuffers_ok_iff hmemory).mpr ⟨hdelivers, rfl⟩, Option.map_some,
    Option.some.injEq] at hanswer
  cases hanswer
  obtain ⟨key, cert, hdrs', found, payload', htexts, hsplit', hkey, hcert⟩ := hdelivered _ rfl
  obtain ⟨_, hpayload⟩ := hsplit.unique hsplit'
  subst hpayload
  cases htexts
  exact ⟨hkey, hcert⟩

/-- A server only has to leave the body out. -/
example (ctx : ClientCtx) :
    ¬ Safe ctx (ascii "HTTP/1.1 200 OK\r\nA:multipart/mixed;boundary=x\r\n\r\n") := by
  intro h
  have hsplit : Split (ascii "HTTP/1.1 200 OK\r\nA:multipart/mixed;boundary=x\r\n\r\n")
      [⟨ascii "A", ascii "multipart/mixed;boundary=x"⟩] (some (ascii "x")) [] :=
    ⟨by decide +kernel, by decide +kernel⟩
  obtain ⟨boundary, fromBoundary, hsome, _, hfound⟩ := named_of_safe h hsplit
  cases hsome
  cases hfound

end Answer

end LibEst.Client.KeygenSafety
