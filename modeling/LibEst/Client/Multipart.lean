import LibEst.Lib.ByteString
import LibEst.Lib.Loop
import LibEst.Server.AuthHeader

/-! The parser of the multipart answer to a key generation request, with the
callbacks that the client registers. The parser reads a buffer one character at a
time, looks one or two characters ahead, and at times steps back by one. -/
namespace LibEst.Client.Multipart

open LibEst.Lib.ByteString LibEst.Lib.Loop LibEst.Server.AuthHeader

inductive State where
  | start
  | startBoundary
  | headerFieldStart
  | headerField
  | headersAlmostDone
  | headerValueStart
  | headerValue
  | headerValueAlmostDone
  | partDataStart
  | partData
  | partDataAlmostBoundary
  | partDataBoundary
  | partDataAlmostEnd
  | partDataEnd
  | partDataFinalHyphen
  | «end»
  deriving DecidableEq, Repr

structure Hdr where
  name : Bytes
  value : Bytes
  deriving DecidableEq, Repr

/-- The headers of the current part stand with the newest first; `hdrName` is the
name whose value has not been read. -/
structure Parser where
  boundary : Bytes
  index : Nat
  state : State
  hdrs : List Hdr
  hdrName : Bytes
  lookbehind : Bytes
  keyData : Bytes
  certData : Bytes
  expectedPayloads : Nat
  deriving DecidableEq, Repr

def multipartParserInit (boundary : Bytes) : Parser where
  boundary := boundary
  index := 0
  state := .start
  hdrs := []
  hdrName := []
  lookbehind := []
  keyData := []
  certData := []
  expectedPayloads := 2

def multipartParseDataMax : Nat := 8192

def contentTypeName : Bytes := ascii "Content-Type"
def contentEncodingName : Bytes := ascii "Content-Transfer-Encoding"
def pkcs8Type : Bytes := ascii "application/pkcs8"
def pkcs7Type : Bytes := ascii "application/pkcs7-mime; smime-type=certs-only"
def base64Encoding : Bytes := ascii "base64"

section Callbacks

def readHeaderName (p : Parser) (name : Bytes) : Parser := { p with hdrName := name }

/-- The headers that are kept, by name and value. Comparisons are of as many
characters as the expected text has. -/
def acceptedHdr (name value : Bytes) : Bool :=
  if contentTypeName.isPrefixOf name then
    pkcs8Type.isPrefixOf value ∨ pkcs7Type.isPrefixOf value
  else contentEncodingName.isPrefixOf name ∧ base64Encoding.isPrefixOf value

def readHeaderValue (p : Parser) (value : Bytes) : Parser :=
  if acceptedHdr p.hdrName value then { p with hdrs := ⟨p.hdrName, value⟩ :: p.hdrs }
  else { p with hdrName := [] }

/-- The value of the newest header whose name begins with the given one. -/
def findHdr (p : Parser) (name : Bytes) : Option Bytes :=
  (p.hdrs.find? fun hdr => name.isPrefixOf hdr.name).map Hdr.value

def onlyWhitespace (data : Bytes) : Bool := data.all fun c => c = 32 ∨ c = 13 ∨ c = 10

def bothPopulated (p : Parser) : Bool := p.keyData ≠ [] ∧ p.certData ≠ []

/-- Ends the callback: the parser stops once it has both texts, and otherwise
forgets the headers of the part. -/
def partDone (p : Parser) : Bool × Parser :=
  if bothPopulated p then (true, p) else (false, { p with hdrs := [] })

/-- Whether the parser is to stop, and the parser with the data stored. -/
def partDataCb (p : Parser) (data : Bytes) : Bool × Parser :=
  match findHdr p contentTypeName, findHdr p contentEncodingName with
  | some ct, some cte =>
      if ¬ base64Encoding.isPrefixOf cte then (false, p)
      else if multipartParseDataMax < data.length then (true, p)
      else if pkcs8Type.isPrefixOf ct then
        if onlyWhitespace data then (true, p) else partDone { p with keyData := data }
      else if pkcs7Type.isPrefixOf ct then
        if onlyWhitespace data then (true, p) else partDone { p with certData := data }
      else partDone p
  | _, _ => (false, p)

end Callbacks

/-- The local variables of `multipart_parser_execute`. -/
structure Cursor where
  parser : Parser
  i : Nat
  mark : Nat
  seenHeaders : Bool
  seenHdrDelimiter : Bool
  numPayloads : Nat

/-- The number of bytes parsed and the parser as it is then. -/
abbrev Parsed := Nat × Parser

section Turns

variable (buf : Bytes) (len : Nat)

def byteAt (i : Nat) : UInt8 := buf.getD i 0

/-- The bytes from the mark up to the current one, which is not among them. -/
def marked (x : Cursor) : Bytes := readFirst (buf.drop x.mark) (x.i - x.mark)

/-- The marked bytes and the current one. -/
def markedLast (x : Cursor) : Bytes := readFirst (buf.drop x.mark) (x.i - x.mark + 1)

/-- The end of a turn: on to a state, behind the current byte. -/
def goTo (state : State) (x : Cursor) : Turn Cursor Parsed :=
  .more { x with parser := { x.parser with state := state }, i := x.i + 1 }

/-- The end of a turn that hands data to the callback. -/
def emitPartData (data : Bytes) (x : Cursor) (next : Cursor → Turn Cursor Parsed) :
    Turn Cursor Parsed :=
  match partDataCb x.parser data with
  | (true, p) => .stop (x.i, p)
  | (false, p) => next { x with parser := p }

/-- Only the length of the boundary matters here: its characters are counted and
not compared. -/
def startBoundary (x : Cursor) : Turn Cursor Parsed :=
  let c := byteAt buf x.i
  let p := x.parser
  let counted := { x with parser := { p with index := p.index + 1 } }
  if p.index = p.boundary.length then
    if c = 13 then goTo .startBoundary counted
    else if c = 45 then goTo .partDataFinalHyphen counted
    else .stop (x.i, p)
  else if p.index = p.boundary.length + 1 then
    if c = 10 then
      goTo .headerFieldStart { x with parser := { p with index := 0 }, seenHeaders := false }
    else .stop (x.i, p)
  else goTo .startBoundary counted

def isHeaderNameByte (c : UInt8) : Bool := c = 45 ∨ (97 ≤ tolower c ∧ tolower c ≤ 122)

def headerField (x : Cursor) : Turn Cursor Parsed :=
  let c := byteAt buf x.i
  if c = 13 then goTo .headersAlmostDone x
  else if c = 58 then
    goTo .headerValueStart { x with
      parser := readHeaderName x.parser (marked buf x), seenHeaders := true, seenHdrDelimiter := true }
  else if 63 < x.i - x.mark ∧ ¬ x.seenHdrDelimiter then .stop (0, x.parser)
  else if ¬ isHeaderNameByte c then .stop (x.i, x.parser)
  else if x.i + 1 = len then
    goTo .headerField { x with parser := readHeaderName x.parser (markedLast buf x) }
  else goTo .headerField x

def headersAlmostDone (x : Cursor) : Turn Cursor Parsed :=
  if byteAt buf x.i ≠ 10 then .stop (x.i, x.parser)
  else if x.seenHeaders then goTo .partDataStart x
  else goTo .headerFieldStart x

def headerValue (y : Cursor) : Turn Cursor Parsed :=
  let x := { y with seenHdrDelimiter := false }
  if byteAt buf x.i = 13 then
    goTo .headerValueAlmostDone { x with parser := readHeaderValue x.parser (marked buf x) }
  else if x.i + 1 = len then
    goTo .headerValue { x with parser := readHeaderValue x.parser (markedLast buf x) }
  else goTo .headerValue x

def headerValueAlmostDone (x : Cursor) : Turn Cursor Parsed :=
  if byteAt buf x.i ≠ 10 then .stop (x.i, x.parser)
  else if byteAt buf (x.i + 1) = 45 then goTo .startBoundary { x with i := x.i + 2 }
  else goTo .headerFieldStart x

/-- A part ends at a carriage return with a hyphen one or two bytes behind it. -/
def endsPart (i : Nat) : Bool :=
  byteAt buf i = 13 ∧ (byteAt buf (i + 1) = 45 ∨ byteAt buf (i + 2) = 45)

def partData (x : Cursor) : Turn Cursor Parsed :=
  if endsPart buf x.i then
    emitPartData (marked buf x) { x with numPayloads := x.numPayloads + 1 } fun y =>
      goTo .partDataAlmostBoundary { y with
        mark := y.i, parser := { y.parser with lookbehind := writeAt y.parser.lookbehind 0 [13] } }
  else if x.i + 1 = len then emitPartData (markedLast buf x) x (goTo .partData)
  else goTo .partData x

/-- What is not a line feed is read again as data. -/
def partDataAlmostBoundary (x : Cursor) : Turn Cursor Parsed :=
  if byteAt buf x.i = 10 then
    let state := if x.numPayloads = x.parser.expectedPayloads then State.partDataBoundary
      else State.startBoundary
    goTo state { x with
      i := x.i + 2
      parser := { x.parser with
        index := 0, lookbehind := writeAt x.parser.lookbehind 1 [10] } }
  else
    emitPartData (readFirst x.parser.lookbehind 1) x fun y =>
      .more { y with mark := y.i, parser := { y.parser with state := .partData } }

def partDataBoundary (x : Cursor) : Turn Cursor Parsed :=
  let c := byteAt buf x.i
  let p := x.parser
  if p.boundary.getD p.index 0 ≠ c then
    emitPartData (readFirst p.lookbehind (2 + p.index)) x fun y =>
      .more { y with mark := y.i, parser := { y.parser with state := .headerFieldStart } }
  else
    let counted := { x with parser :=
      { p with index := p.index + 1, lookbehind := writeAt p.lookbehind (2 + p.index) [c] } }
    if p.index + 1 = p.boundary.length then goTo .partDataAlmostEnd counted
    else goTo .partDataBoundary counted

def partDataAlmostEnd (x : Cursor) : Turn Cursor Parsed :=
  if byteAt buf x.i = 45 then goTo .partDataFinalHyphen x
  else if byteAt buf x.i = 13 then goTo .partDataEnd x
  else .stop (x.i, x.parser)

def partDataFinalHyphen (x : Cursor) : Turn Cursor Parsed :=
  if byteAt buf x.i = 45 then goTo .end x else .stop (x.i, x.parser)

def partDataEnd (x : Cursor) : Turn Cursor Parsed :=
  if byteAt buf x.i = 10 then goTo .headerFieldStart x else .stop (x.i, x.parser)

/-- The branch of a state. The states that only set a mark fall through. -/
def stateTurn (x : Cursor) : State → Turn Cursor Parsed
  | .start => startBoundary buf { x with parser := { x.parser with index := 0 } }
  | .startBoundary => startBoundary buf x
  | .headerFieldStart => headerField buf len { x with mark := x.i }
  | .headerField => headerField buf len x
  | .headersAlmostDone => headersAlmostDone buf x
  | .headerValueStart =>
      if byteAt buf x.i = 32 then goTo .headerValueStart x
      else headerValue buf len { x with mark := x.i }
  | .headerValue => headerValue buf len x
  | .headerValueAlmostDone => headerValueAlmostDone buf x
  | .partDataStart => partData buf len { x with mark := x.i }
  | .partData => partData buf len x
  | .partDataAlmostBoundary => partDataAlmostBoundary buf x
  | .partDataBoundary => partDataBoundary buf x
  | .partDataAlmostEnd => partDataAlmostEnd buf x
  | .partDataEnd => partDataEnd buf x
  | .partDataFinalHyphen => partDataFinalHyphen buf x
  | .end => goTo .end x

/-- One turn of the loop. -/
def turn (x : Cursor) : Turn Cursor Parsed :=
  if len ≤ x.i then .stop (len, x.parser) else stateTurn buf len x x.parser.state

end Turns

section Termination

variable {buf : Bytes} {len : Nat}

/-- A byte is read at most twice: after a step back the state is another. -/
def mayStepBack : State → Bool
  | .partDataAlmostBoundary => true
  | .partDataBoundary => true
  | _ => false

def remaining (len : Nat) (x : Cursor) : Nat :=
  2 * (len - x.i) + if mayStepBack x.parser.state then 1 else 0

/-- A turn goes on only behind the byte it has read. -/
def Forward (i : Nat) (t : Turn Cursor Parsed) : Prop := ∀ next, t = .more next → i < next.i

theorem forward_stop {i : Nat} (result : Parsed) : Forward i (.stop result) := by
  intro next h
  cases h

theorem forward_goTo {i : Nat} {state : State} {x : Cursor} (h : i ≤ x.i) :
    Forward i (goTo state x) := by
  intro next hnext
  cases hnext
  exact Nat.lt_succ_of_le h

theorem forward_emitPartData {i : Nat} {data : Bytes} {x : Cursor}
    {next : Cursor → Turn Cursor Parsed}
    (h : ∀ p, Forward i (next { x with parser := p })) : Forward i (emitPartData data x next) := by
  unfold emitPartData
  split
  · exact forward_stop _
  · exact h _

theorem forward_startBoundary {i : Nat} {x : Cursor} (h : i ≤ x.i) :
    Forward i (startBoundary buf x) := by
  unfold startBoundary
  dsimp only
  repeat' split
  all_goals first | exact forward_stop _ | exact forward_goTo h

theorem forward_headerField {i : Nat} {x : Cursor} (h : i ≤ x.i) :
    Forward i (headerField buf len x) := by
  unfold headerField
  dsimp only
  repeat' split
  all_goals first | exact forward_stop _ | exact forward_goTo h

theorem forward_headersAlmostDone {i : Nat} {x : Cursor} (h : i ≤ x.i) :
    Forward i (headersAlmostDone buf x) := by
  unfold headersAlmostDone
  repeat' split
  all_goals first | exact forward_stop _ | exact forward_goTo h

theorem forward_headerValue {i : Nat} {x : Cursor} (h : i ≤ x.i) :
    Forward i (headerValue buf len x) := by
  unfold headerValue
  dsimp only
  repeat' split
  all_goals exact forward_goTo h

theorem forward_headerValueAlmostDone {i : Nat} {x : Cursor} (h : i ≤ x.i) :
    Forward i (headerValueAlmostDone buf x) := by
  unfold headerValueAlmostDone
  repeat' split
  · exact forward_stop _
  · exact forward_goTo (Nat.le_add_right_of_le h)
  · exact forward_goTo h

theorem forward_partData {i : Nat} {x : Cursor} (h : i ≤ x.i) :
    Forward i (partData buf len x) := by
  unfold partData
  repeat' split
  · exact forward_emitPartData fun p => forward_goTo h
  · exact forward_emitPartData fun p => forward_goTo h
  · exact forward_goTo h

theorem forward_partDataAlmostEnd {i : Nat} {x : Cursor} (h : i ≤ x.i) :
    Forward i (partDataAlmostEnd buf x) := by
  unfold partDataAlmostEnd
  repeat' split
  all_goals first | exact forward_stop _ | exact forward_goTo h

theorem forward_partDataFinalHyphen {i : Nat} {x : Cursor} (h : i ≤ x.i) :
    Forward i (partDataFinalHyphen buf x) := by
  unfold partDataFinalHyphen
  split
  · exact forward_goTo h
  · exact forward_stop _

theorem forward_partDataEnd {i : Nat} {x : Cursor} (h : i ≤ x.i) :
    Forward i (partDataEnd buf x) := by
  unfold partDataEnd
  split
  · exact forward_goTo h
  · exact forward_stop _

/-- A turn that may step back goes on behind the byte, or at the byte in a state
that does not. -/
def ForwardOrBack (i : Nat) (t : Turn Cursor Parsed) : Prop :=
  ∀ next, t = .more next →
    i < next.i ∨ (next.i = i ∧ mayStepBack next.parser.state = false)

theorem Forward.orBack {i : Nat} {t : Turn Cursor Parsed} (h : Forward i t) : ForwardOrBack i t :=
  fun next hnext => .inl (h next hnext)

theorem forwardOrBack_emitPartData {data : Bytes} {x : Cursor} {state : State}
    (hstate : mayStepBack state = false) :
    ForwardOrBack x.i (emitPartData data x fun y =>
      .more { y with mark := y.i, parser := { y.parser with state := state } }) := by
  intro next h
  unfold emitPartData at h
  split at h
  · cases h
  · cases h
    exact .inr ⟨rfl, hstate⟩

theorem forwardOrBack_partDataAlmostBoundary (x : Cursor) :
    ForwardOrBack x.i (partDataAlmostBoundary buf x) := by
  unfold partDataAlmostBoundary
  split
  · exact (forward_goTo (Nat.le_add_right _ _)).orBack
  · exact forwardOrBack_emitPartData rfl

theorem forwardOrBack_partDataBoundary (x : Cursor) :
    ForwardOrBack x.i (partDataBoundary buf x) := by
  unfold partDataBoundary
  dsimp only
  split
  · exact forwardOrBack_emitPartData rfl
  · split
    · exact (forward_goTo (le_refl _)).orBack
    · exact (forward_goTo (le_refl _)).orBack

theorem remaining_lt_of_forward {i : Nat} {x next : Cursor} (hi : x.i = i) (hlen : i < len)
    (h : i < next.i) : remaining len next < remaining len x := by
  unfold remaining
  split <;> split <;> omega

/-- One turn shrinks what is left to read. -/
theorem turn_shrinks (buf : Bytes) (len : Nat) : Shrinks (turn buf len) (remaining len) := by
  intro x next h
  unfold turn at h
  split at h
  · cases h
  · rename_i hlen
    have hlt : x.i < len := Nat.lt_of_not_le hlen
    have hforward {t : Turn Cursor Parsed} (hnext : t = .more next) (ht : Forward x.i t) :
        remaining len next < remaining len x :=
      remaining_lt_of_forward rfl hlt (ht next hnext)
    have hback {t : Turn Cursor Parsed} (hstate : mayStepBack x.parser.state = true)
        (ht : ForwardOrBack x.i t) (hnext : t = .more next) :
        remaining len next < remaining len x := by
      cases ht next hnext with
      | inl h => exact remaining_lt_of_forward rfl hlt h
      | inr h =>
        unfold remaining
        rw [h.1, h.2, hstate]
        simp
    unfold stateTurn at h
    split at h
    · exact hforward h (forward_startBoundary (le_refl _))
    · exact hforward h (forward_startBoundary (le_refl _))
    · exact hforward h (forward_headerField (le_refl _))
    · exact hforward h (forward_headerField (le_refl _))
    · exact hforward h (forward_headersAlmostDone (le_refl _))
    · split at h
      · exact hforward h (forward_goTo (le_refl _))
      · exact hforward h (forward_headerValue (le_refl _))
    · exact hforward h (forward_headerValue (le_refl _))
    · exact hforward h (forward_headerValueAlmostDone (le_refl _))
    · exact hforward h (forward_partData (le_refl _))
    · exact hforward h (forward_partData (le_refl _))
    · rename_i hstate
      exact hback (by rw [hstate]; rfl) (forwardOrBack_partDataAlmostBoundary _) h
    · rename_i hstate
      exact hback (by rw [hstate]; rfl) (forwardOrBack_partDataBoundary _) h
    · exact hforward h (forward_partDataAlmostEnd (le_refl _))
    · exact hforward h (forward_partDataEnd (le_refl _))
    · exact hforward h (forward_partDataFinalHyphen (le_refl _))
    · exact hforward h (forward_goTo (le_refl _))

end Termination

def firstCursor (p : Parser) : Cursor where
  parser := p
  i := 0
  mark := 0
  seenHeaders := false
  seenHdrDelimiter := false
  numPayloads := 0

/-- The memory from the buffer on, and the length of the text there. Hyphens at
the front are skipped, and the length stays as it was. -/
def multipartParserExecute (p : Parser) (memory : Bytes) (len : Nat) : Parsed :=
  let buf := memory.dropWhile (· = 45)
  loopTotal (turn buf len) (remaining len) (turn_shrinks buf len) (firstCursor p)

end LibEst.Client.Multipart
