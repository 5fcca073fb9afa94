import LibEst.Client.Multipart

/-! What the multipart parser does to a part that is written as usual: the line
with the boundary, header lines, an empty line, and data up to the next boundary.
A position in the buffer is given by the bytes that stand there. -/
namespace LibEst.Client.MultipartRead

open LibEst.Lib.ByteString LibEst.Lib.Loop LibEst.Server.AuthHeader LibEst.Client.Multipart

variable {buf : Bytes} {len : Nat}

section Positions

theorem byteAt_of_drop {i : Nat} {c : UInt8} {rest : Bytes} (h : buf.drop i = c :: rest) :
    byteAt buf i = c := by
  have hget : (buf.drop i)[0]? = some c := by rw [h]; rfl
  rw [List.getElem?_drop, Nat.add_zero] at hget
  rw [byteAt, List.getD_eq_getElem?_getD, hget]
  rfl

theorem drop_succ_of_drop {i : Nat} {c : UInt8} {rest : Bytes} (h : buf.drop i = c :: rest) :
    buf.drop (i + 1) = rest := by
  rw [← List.drop_drop, h]
  rfl

theorem drop_add_of_drop {i : Nat} {front rest : Bytes} (h : buf.drop i = front ++ rest) :
    buf.drop (i + front.length) = rest := by
  rw [← List.drop_drop, h, List.drop_left]

theorem drop_getElem_of_drop {i j : Nat} {front rest : Bytes} (h : buf.drop i = front ++ rest)
    (hj : j < front.length) :
    buf.drop (i + j) = front[j] :: (front.drop (j + 1) ++ rest) := by
  rw [← List.drop_drop, h, List.drop_append_of_le_length hj.le, List.drop_eq_getElem_cons hj,
    List.cons_append]

theorem readFirst_of_drop {i : Nat} {front rest : Bytes} (h : buf.drop i = front ++ rest) :
    readFirst (buf.drop i) front.length = front := by
  rw [h]
  exact readFirst_prefix _ _

end Positions

section Moves

def Cursor.move (x : Cursor) (n : Nat) : Cursor := { x with i := x.i + n }

@[simp] theorem Cursor.move_i (x : Cursor) (n : Nat) : (Cursor.move x n).i = x.i + n := rfl

@[simp] theorem Cursor.parser_move (x : Cursor) (n : Nat) : (Cursor.move x n).parser = x.parser := rfl

@[simp] theorem Cursor.move_mark (x : Cursor) (n : Nat) : (Cursor.move x n).mark = x.mark := rfl

@[simp] theorem Cursor.move_zero (x : Cursor) : Cursor.move x 0 = x := rfl

theorem Cursor.move_move (x : Cursor) (m n : Nat) :
    Cursor.move (Cursor.move x m) n = Cursor.move x (m + n) := by
  unfold Cursor.move
  simp only [Nat.add_assoc]

/-- A turn that stays in its state only moves. -/
theorem goTo_stay {state : State} {x : Cursor} (h : x.parser.state = state) :
    goTo state x = .more (Cursor.move x 1) := by
  subst h
  rfl

/-- A byte after which the parser goes on as before. -/
def Passes (buf : Bytes) (len : Nat) (x : Cursor) : Prop :=
  turn buf len x = .more (Cursor.move x 1)

/-- Bytes that are each passed are passed together. -/
theorem reaches_move {x : Cursor} {n : Nat} (h : ∀ j < n, Passes buf len (Cursor.move x j)) :
    Reaches (turn buf len) x (Cursor.move x n) := by
  induction n with
  | zero => exact Relation.ReflTransGen.refl
  | succ n ih =>
    have hfront := ih fun j hj => h j (by omega)
    have hlast := h n (Nat.lt_succ_self n)
    unfold Passes at hlast
    rw [Cursor.move_move] at hlast
    exact hfront.trans (Reaches.step hlast)

theorem turn_of_state {x : Cursor} {state : State} (h : x.i < len) (hstate : x.parser.state = state) :
    turn buf len x = stateTurn buf len x state := by
  rw [turn, if_neg (Nat.not_le_of_lt h), hstate]

end Moves

section Boundary

/-- The cursor at the first header of a part. -/
def atHeaders (x : Cursor) (i : Nat) : Cursor :=
  { x with i := i, seenHeaders := false
           parser := { x.parser with index := 0, state := .headerFieldStart } }

variable (hlen : buf.length < len)

include hlen

theorem succ_lt_of_drop {i : Nat} {c : UInt8} {rest : Bytes} (h : buf.drop i = c :: rest) :
    i + 1 < len := by
  have hlength := congrArg List.length h
  rw [List.length_drop, List.length_cons] at hlength
  omega

theorem lt_of_drop {i : Nat} {c : UInt8} {rest : Bytes} (h : buf.drop i = c :: rest) : i < len :=
  Nat.lt_of_succ_lt (succ_lt_of_drop hlen h)

/-- As many bytes as the boundary has are counted, whichever they are, and then
the line must end. -/
theorem reaches_boundary {x : Cursor} (hstate : x.parser.state = .startBoundary)
    {line rest : Bytes} (hdrop : buf.drop x.i = line ++ 13 :: 10 :: rest)
    (hindex : x.parser.index + line.length = x.parser.boundary.length) :
    Reaches (turn buf len) x (atHeaders x (x.i + line.length + 2)) := by
  induction line generalizing x with
  | nil =>
    have hcr := byteAt_of_drop hdrop
    have hdrop' := drop_succ_of_drop hdrop
    have hlf := byteAt_of_drop hdrop'
    rw [List.length_nil, Nat.add_zero] at hindex
    have hfirst : turn buf len x = goTo .startBoundary
        { x with parser := { x.parser with index := x.parser.index + 1 } } := by
      rw [turn_of_state (lt_of_drop hlen hdrop) hstate, stateTurn, startBoundary, if_pos hindex,
        hcr, if_pos rfl]
    apply (Reaches.step hfirst).trans
    apply Reaches.step
    rw [turn_of_state (lt_of_drop hlen hdrop') rfl, stateTurn, startBoundary, if_neg (by simp [hindex]),
      if_pos (by simp [hindex]), if_pos hlf]
    rfl
  | cons c line ih =>
    rw [List.length_cons] at hindex
    have hdrop' := drop_succ_of_drop hdrop
    have hfirst : turn buf len x = goTo .startBoundary
        { x with parser := { x.parser with index := x.parser.index + 1 } } := by
      rw [turn_of_state (lt_of_drop hlen hdrop) hstate, stateTurn, startBoundary,
        if_neg (by omega), if_neg (by omega)]
    apply (Reaches.step hfirst).trans
    have hrest := ih (x := { x with i := x.i + 1, parser :=
      { x.parser with index := x.parser.index + 1, state := .startBoundary } }) rfl hdrop' (by
        simp only
        omega)
    have hpos : x.i + 1 + line.length + 2 = x.i + (c :: line).length + 2 := by
      rw [List.length_cons]
      omega
    rw [hpos] at hrest
    exact hrest

end Boundary

section HeaderLine

/-- A header as servers write it. -/
structure PlainHeader (name value : Bytes) : Prop where
  nameBytes : ∀ c ∈ name, isHeaderNameByte c
  nameNe : name ≠ []
  nameShort : name.length ≤ 64
  valueBytes : ∀ c ∈ value, c ≠ 13
  valueNe : value ≠ []
  valueFront : value.head? ≠ some 32

/-- The parser with one more header read. -/
def readHeader (p : Parser) (name value : Bytes) : Parser :=
  readHeaderValue (readHeaderName p name) value

/-- The cursor behind the name of a header, at the value. -/
def behindName (x : Cursor) (name : Bytes) : Cursor :=
  { x with
    mark := x.i
    i := x.i + name.length + 1
    seenHeaders := true
    seenHdrDelimiter := true
    parser := { readHeaderName x.parser name with state := .headerValueStart } }

/-- The cursor behind the line end of a header whose value begins one byte on. -/
def behindValue (x : Cursor) (value : Bytes) : Cursor :=
  { x with
    mark := x.i + 1
    i := x.i + value.length + 3
    seenHdrDelimiter := false
    parser := { readHeaderValue x.parser value with state := .headerFieldStart } }

def inState (state : State) (p : Parser) : Parser := { p with state := state }

theorem readHeaderValue_inState (p : Parser) (state : State) (value : Bytes) :
    readHeaderValue (inState state p) value = inState state (readHeaderValue p value) := by
  unfold readHeaderValue inState
  dsimp only
  split <;> rfl

theorem readHeader_inState (p : Parser) (state : State) (name value : Bytes) :
    readHeader (inState state p) name value = inState state (readHeader p name value) :=
  readHeaderValue_inState (readHeaderName p name) state value

theorem headerLine_state (x : Cursor) (name value : Bytes) :
    (behindValue (behindName x name) value).parser =
      inState .headerFieldStart (readHeader x.parser name value) := by
  show inState .headerFieldStart
    (readHeaderValue (inState .headerValueStart (readHeaderName x.parser name)) value) = _
  rw [readHeaderValue_inState]
  rfl

theorem drop_headerLine {x : Cursor} {name value rest : Bytes}
    (hdrop : buf.drop x.i = name ++ 58 :: 32 :: (value ++ 13 :: 10 :: rest)) :
    buf.drop (behindValue (behindName x name) value).i = rest := by
  have hvalue := drop_succ_of_drop (drop_succ_of_drop (drop_add_of_drop hdrop))
  have hrest := drop_succ_of_drop (drop_succ_of_drop (drop_add_of_drop hvalue))
  have hpos : x.i + name.length + 1 + value.length + 3 =
      x.i + name.length + 1 + 1 + value.length + 1 + 1 := by omega
  show buf.drop (x.i + name.length + 1 + value.length + 3) = rest
  rw [hpos]
  exact hrest

theorem headerValue_end {x : Cursor} (h : byteAt buf x.i = 13) :
    headerValue buf len x = goTo .headerValueAlmostDone { x with
      seenHdrDelimiter := false, parser := readHeaderValue x.parser (marked buf x) } := by
  unfold headerValue
  dsimp only
  rw [if_pos h]
  rfl

theorem ne_of_isHeaderNameByte {c : UInt8} (h : isHeaderNameByte c) : c ≠ 13 ∧ c ≠ 58 := by
  constructor
  · rintro rfl
    exact absurd h (by decide)
  · rintro rfl
    exact absurd h (by decide)

variable (hlen : buf.length < len)

include hlen

theorem headerField_pass {x : Cursor} {c : UInt8} {rest : Bytes} (hdrop : buf.drop x.i = c :: rest)
    (hname : isHeaderNameByte c) (hshort : x.i - x.mark ≤ 63) :
    headerField buf len x = goTo .headerField x := by
  have hc := byteAt_of_drop hdrop
  have hne := ne_of_isHeaderNameByte hname
  have hlast := succ_lt_of_drop hlen hdrop
  unfold headerField
  dsimp only
  rw [hc, if_neg hne.1, if_neg hne.2, if_neg (by omega), if_neg (by simpa using hname),
    if_neg (by omega)]

theorem headerValue_pass {x : Cursor} {c : UInt8} {rest : Bytes} (hdrop : buf.drop x.i = c :: rest)
    (hc : c ≠ 13) : headerValue buf len x = goTo .headerValue { x with seenHdrDelimiter := false } := by
  have hlast := succ_lt_of_drop hlen hdrop
  unfold headerValue
  dsimp only
  rw [byteAt_of_drop hdrop, if_neg hc, if_neg (by omega)]

theorem reaches_name {x : Cursor} (hstate : x.parser.state = .headerField) {name rest : Bytes}
    (hdrop : buf.drop x.i = name ++ rest) (hname : ∀ c ∈ name, isHeaderNameByte c)
    (hshort : x.i - x.mark + name.length ≤ 64) :
    Reaches (turn buf len) x (Cursor.move x name.length) := by
  apply reaches_move
  intro j hj
  have hbyte := drop_getElem_of_drop hdrop hj
  have hpass := headerField_pass hlen (x := Cursor.move x j) hbyte
    (hname _ (List.getElem_mem hj)) (by simp only [Cursor.move_i, Cursor.move_mark]; omega)
  rw [Passes, turn_of_state (x := Cursor.move x j) (lt_of_drop hlen hbyte) hstate, stateTurn, hpass]
  exact goTo_stay hstate

theorem reaches_value {x : Cursor} (hstate : x.parser.state = .headerValue)
    (hseen : x.seenHdrDelimiter = false) {value rest : Bytes}
    (hdrop : buf.drop x.i = value ++ rest) (hvalue : ∀ c ∈ value, c ≠ 13) :
    Reaches (turn buf len) x (Cursor.move x value.length) := by
  apply reaches_move
  intro j hj
  have hbyte := drop_getElem_of_drop hdrop hj
  have hpass := headerValue_pass hlen (x := Cursor.move x j) hbyte (hvalue _ (List.getElem_mem hj))
  have hsame : { Cursor.move x j with seenHdrDelimiter := false } = Cursor.move x j := by
    rw [← hseen]
    rfl
  rw [Passes, turn_of_state (x := Cursor.move x j) (lt_of_drop hlen hbyte) hstate, stateTurn, hpass,
    hsame]
  exact goTo_stay hstate

theorem reaches_behindName {x : Cursor} (hstate : x.parser.state = .headerFieldStart)
    {name value rest : Bytes} (hdr : PlainHeader name value)
    (hdrop : buf.drop x.i = name ++ 58 :: rest) :
    Reaches (turn buf len) x (behindName x name) := by
  have hne := hdr.nameNe
  have hbytes := hdr.nameBytes
  have hshort := hdr.nameShort
  cases name with
  | nil => exact absurd rfl hne
  | cons c name =>
    rw [List.length_cons] at hshort
    have hfirst : turn buf len x = goTo .headerField { x with mark := x.i } := by
      rw [turn_of_state (lt_of_drop hlen hdrop) hstate, stateTurn]
      exact headerField_pass hlen (x := { x with mark := x.i }) hdrop (hbytes c (by simp)) (by simp)
    have hdrop' := drop_succ_of_drop hdrop
    let y : Cursor := { x with
      mark := x.i, i := x.i + 1, parser := { x.parser with state := .headerField } }
    have hname : Reaches (turn buf len) y (Cursor.move y name.length) := by
      apply reaches_name hlen rfl hdrop'
      · intro d hd
        exact hbytes d (by simp [hd])
      · show x.i + 1 - x.i + name.length ≤ 64
        omega
    have hcolon := drop_add_of_drop hdrop'
    have hlast : turn buf len (Cursor.move y name.length) = .more (behindName x (c :: name)) := by
      have hmarked : marked buf (Cursor.move y name.length) = c :: name := by
        have hsize : x.i + 1 + name.length - x.i = (c :: name).length := by
          rw [List.length_cons]
          omega
        show readFirst (buf.drop x.i) (x.i + 1 + name.length - x.i) = c :: name
        rw [hsize]
        exact readFirst_of_drop hdrop
      have hbyte : byteAt buf (Cursor.move y name.length).i = 58 := byteAt_of_drop hcolon
      have hsame : x.i + 1 + name.length + 1 = x.i + (c :: name).length + 1 := by
        rw [List.length_cons]
        omega
      rw [turn_of_state (x := Cursor.move y name.length) (lt_of_drop hlen hcolon)
        (show y.parser.state = .headerField from rfl), stateTurn]
      unfold headerField
      dsimp only
      rw [hbyte, if_neg (by decide), if_pos rfl, hmarked]
      unfold behindName goTo
      rw [← hsame]
      rfl
    exact ((Reaches.step hfirst).trans hname).trans (Reaches.step hlast)

theorem reaches_behindValue {x : Cursor} (hstate : x.parser.state = .headerValueStart)
    {name value rest : Bytes} {next : UInt8} (hdr : PlainHeader name value) (hnext : next ≠ 45)
    (hdrop : buf.drop x.i = 32 :: (value ++ 13 :: 10 :: next :: rest)) :
    Reaches (turn buf len) x (behindValue x value) := by
  have hspace : turn buf len x = .more (Cursor.move x 1) := by
    rw [turn_of_state (lt_of_drop hlen hdrop) hstate, stateTurn, if_pos (byteAt_of_drop hdrop)]
    exact goTo_stay hstate
  have hne := hdr.valueNe
  have hbytes := hdr.valueBytes
  have hfront := hdr.valueFront
  cases value with
  | nil => exact absurd rfl hne
  | cons c value =>
    have hvalue := drop_succ_of_drop hdrop
    have hc : byteAt buf (x.i + 1) = c := byteAt_of_drop hvalue
    let y : Cursor := { x with
      mark := x.i + 1, i := x.i + 1 + 1, seenHdrDelimiter := false
      parser := { x.parser with state := .headerValue } }
    have hfirst : turn buf len (Cursor.move x 1) = .more y := by
      have hpass := headerValue_pass hlen (x := { Cursor.move x 1 with mark := x.i + 1 }) hvalue
        (hbytes c (by simp))
      rw [turn_of_state (x := Cursor.move x 1) (lt_of_drop hlen hvalue) hstate, stateTurn]
      rw [Cursor.move_i, hc, if_neg (fun h => hfront (by simp [h]))]
      exact hpass
    have hvalue' := drop_succ_of_drop hvalue
    have hmove : Reaches (turn buf len) y (Cursor.move y value.length) :=
      reaches_value hlen rfl rfl hvalue' fun d hd => hbytes d (by simp [hd])
    have hcr := drop_add_of_drop hvalue'
    have hlf := drop_succ_of_drop hcr
    have hafter := drop_succ_of_drop hlf
    let z : Cursor := { y with
      i := x.i + 1 + 1 + value.length + 1
      parser := { readHeaderValue x.parser (c :: value) with state := .headerValueAlmostDone } }
    have hend : turn buf len (Cursor.move y value.length) = .more z := by
      have hmarked : marked buf (Cursor.move y value.length) = c :: value := by
        have hsize : x.i + 1 + 1 + value.length - (x.i + 1) = (c :: value).length := by
          rw [List.length_cons]
          omega
        show readFirst (buf.drop (x.i + 1)) (x.i + 1 + 1 + value.length - (x.i + 1)) = c :: value
        rw [hsize]
        exact readFirst_of_drop hvalue
      have hbyte : byteAt buf (Cursor.move y value.length).i = 13 := byteAt_of_drop hcr
      rw [turn_of_state (x := Cursor.move y value.length) (lt_of_drop hlen hcr)
        (show y.parser.state = .headerValue from rfl), stateTurn]
      have hparser : readHeaderValue (Cursor.move y value.length).parser (c :: value) =
          inState .headerValue (readHeaderValue x.parser (c :: value)) :=
        readHeaderValue_inState _ _ _
      rw [headerValue_end hbyte, hmarked, hparser]
      rfl
    have hline : turn buf len z = .more (behindValue x (c :: value)) := by
      have hsame : x.i + 1 + 1 + value.length + 1 + 1 = x.i + (c :: value).length + 3 := by
        rw [List.length_cons]
        omega
      have hbyte : byteAt buf z.i = 10 := byteAt_of_drop hlf
      have hbehind : byteAt buf (z.i + 1) = next := byteAt_of_drop hafter
      rw [turn_of_state (lt_of_drop hlen hlf)
        (show z.parser.state = .headerValueAlmostDone from rfl), stateTurn, headerValueAlmostDone,
        if_neg (by rw [hbyte]; simp), if_neg (by rw [hbehind]; exact hnext)]
      unfold behindValue goTo
      rw [← hsame]
    exact (((Reaches.step hspace).trans (Reaches.step hfirst)).trans hmove).trans
      ((Reaches.step hend).trans (Reaches.step hline))

/-- The cursor behind a whole header line. -/
theorem reaches_headerLine {x : Cursor} (hstate : x.parser.state = .headerFieldStart)
    {name value rest : Bytes} {next : UInt8} (hdr : PlainHeader name value) (hnext : next ≠ 45)
    (hdrop : buf.drop x.i = name ++ 58 :: 32 :: (value ++ 13 :: 10 :: next :: rest)) :
    Reaches (turn buf len) x (behindValue (behindName x name) value) := by
  have hvalue : buf.drop (behindName x name).i = 32 :: (value ++ 13 :: 10 :: next :: rest) :=
    drop_succ_of_drop (drop_add_of_drop hdrop)
  exact (reaches_behindName hlen hstate hdr hdrop).trans
    (reaches_behindValue hlen rfl hdr hnext hvalue)

/-- An empty line behind the headers. -/
theorem reaches_partStart {x : Cursor} (hstate : x.parser.state = .headerFieldStart)
    (hseen : x.seenHeaders = true) {rest : Bytes} (hdrop : buf.drop x.i = 13 :: 10 :: rest) :
    Reaches (turn buf len) x { x with
      mark := x.i, i := x.i + 2, parser := { x.parser with state := .partDataStart } } := by
  have hlf := drop_succ_of_drop hdrop
  have hfirst : turn buf len x = goTo .headersAlmostDone { x with mark := x.i } := by
    rw [turn_of_state (lt_of_drop hlen hdrop) hstate, stateTurn, headerField,
      if_pos (byteAt_of_drop hdrop)]
  apply (Reaches.step hfirst).trans
  apply Reaches.step
  rw [turn_of_state (lt_of_drop hlen hlf) rfl, stateTurn, headersAlmostDone,
    if_neg (by rw [byteAt_of_drop hlf]; simp), if_pos hseen]
  rfl

end HeaderLine

section PartData

/-- The cursor at the end of the data of a part. -/
def atPartEnd (x : Cursor) (data : Bytes) : Cursor :=
  { x with
    mark := x.i
    i := x.i + data.length
    parser := { x.parser with state := .partData } }

theorem marked_atPartEnd {x : Cursor} {data rest : Bytes} (hdrop : buf.drop x.i = data ++ rest) :
    marked buf (atPartEnd x data) = data := by
  have hsize : x.i + data.length - x.i = data.length := by omega
  show readFirst (buf.drop x.i) (x.i + data.length - x.i) = data
  rw [hsize]
  exact readFirst_of_drop hdrop

/-- No hyphen is near a byte of the data. -/
theorem not_endsPart {i j : Nat} {data rest : Bytes}
    (hdrop : buf.drop i = data ++ 13 :: 10 :: rest) (hdata : ∀ c ∈ data, c ≠ 45)
    (hj : j < data.length) : endsPart buf (i + j) = false := by
  have hframe : buf.drop i = (data ++ [13, 10]) ++ rest := by
    rw [hdrop, List.append_assoc]
    rfl
  have hbytes : ∀ c ∈ data ++ [13, 10], c ≠ 45 := by
    intro c hc
    rw [List.mem_append] at hc
    cases hc with
    | inl hc => exact hdata c hc
    | inr hc =>
      rintro rfl
      exact absurd hc (by decide)
  have hnear (k : Nat) (hk : k < (data ++ [13, 10]).length) : byteAt buf (i + k) ≠ 45 := by
    rw [byteAt_of_drop (drop_getElem_of_drop hframe hk)]
    exact hbytes _ (List.getElem_mem hk)
  have hone := hnear (j + 1) (by simp; omega)
  have htwo := hnear (j + 2) (by simp; omega)
  unfold endsPart
  simp only [Nat.add_assoc, hone, htwo, or_self, and_false, decide_false]

variable (hlen : buf.length < len)

include hlen

theorem partData_pass {x : Cursor} {c : UInt8} {rest : Bytes} (hdrop : buf.drop x.i = c :: rest)
    (hend : endsPart buf x.i = false) : partData buf len x = goTo .partData x := by
  have hlast := succ_lt_of_drop hlen hdrop
  unfold partData
  rw [hend, if_neg (by simp), if_neg (by omega)]

theorem reaches_atPartEnd {x : Cursor} (hstate : x.parser.state = .partDataStart)
    {data rest : Bytes} (hne : data ≠ []) (hdata : ∀ c ∈ data, c ≠ 45)
    (hdrop : buf.drop x.i = data ++ 13 :: 10 :: rest) :
    Reaches (turn buf len) x (atPartEnd x data) := by
  cases data with
  | nil => exact absurd rfl hne
  | cons c data =>
    have hinside (j : Nat) (hj : j < (c :: data).length) : endsPart buf (x.i + j) = false :=
      not_endsPart hdrop hdata hj
    let y : Cursor := { x with
      mark := x.i, i := x.i + 1, parser := { x.parser with state := .partData } }
    have hfirst : turn buf len x = .more y := by
      rw [turn_of_state (lt_of_drop hlen hdrop) hstate, stateTurn]
      exact partData_pass hlen (x := { x with mark := x.i }) hdrop (hinside 0 (by simp))
    have hmove : Reaches (turn buf len) y (Cursor.move y data.length) := by
      apply reaches_move
      intro j hj
      have hbyte := drop_getElem_of_drop (drop_succ_of_drop hdrop) hj
      have hpos : x.i + 1 + j = x.i + (j + 1) := by omega
      have hpass := partData_pass hlen (x := Cursor.move y j) hbyte (by
        show endsPart buf (x.i + 1 + j) = false
        rw [hpos]
        exact hinside (j + 1) (by simpa using hj))
      rw [Passes, turn_of_state (x := Cursor.move y j) (lt_of_drop hlen hbyte)
        (show y.parser.state = .partData from rfl), stateTurn, hpass]
      exact goTo_stay rfl
    have hsame : Cursor.move y data.length = atPartEnd x (c :: data) := by
      unfold atPartEnd Cursor.move
      have hpos : x.i + 1 + data.length = x.i + (c :: data).length := by
        rw [List.length_cons]
        omega
      rw [← hpos]
    rw [hsame] at hmove
    exact (Reaches.step hfirst).trans hmove

/-- At the end of its data a part is handed to the callback. -/
theorem turn_atPartEnd {x : Cursor} {data rest : Bytes}
    (hdrop : buf.drop x.i = data ++ 13 :: 10 :: 45 :: rest) :
    turn buf len (atPartEnd x data) =
      emitPartData data { atPartEnd x data with numPayloads := x.numPayloads + 1 } fun y =>
        goTo .partDataAlmostBoundary { y with
          mark := y.i, parser := { y.parser with lookbehind := writeAt y.parser.lookbehind 0 [13] } } := by
  have hcr := drop_add_of_drop hdrop
  have hlf := drop_succ_of_drop hcr
  have hends : endsPart buf (atPartEnd x data).i = true := by
    have hfirst : byteAt buf (x.i + data.length) = 13 := byteAt_of_drop hcr
    have hsecond : byteAt buf (x.i + data.length + 2) = 45 :=
      byteAt_of_drop (drop_succ_of_drop hlf)
    show endsPart buf (x.i + data.length) = true
    unfold endsPart
    simp only [hfirst, hsecond, or_true, and_self, decide_true]
  rw [turn_of_state (x := atPartEnd x data) (lt_of_drop hlen hcr)
    (show (atPartEnd x data).parser.state = .partData from rfl), stateTurn, partData, hends,
    if_pos rfl, marked_atPartEnd hdrop]
  rfl

theorem turn_atPartEnd_stop {x : Cursor} {data rest : Bytes} {p : Parser}
    (hdrop : buf.drop x.i = data ++ 13 :: 10 :: 45 :: rest)
    (hcb : partDataCb (atPartEnd x data).parser data = (true, p)) :
    turn buf len (atPartEnd x data) = .stop (x.i + data.length, p) := by
  rw [turn_atPartEnd hlen hdrop, emitPartData]
  simp only [hcb]
  rfl

/-- The cursor behind the line end and the two hyphens that follow a part. -/
def atNextBoundary (x : Cursor) (data : Bytes) (p : Parser) : Cursor :=
  { atPartEnd x data with
    mark := x.i + data.length
    i := x.i + data.length + 4
    numPayloads := x.numPayloads + 1
    parser := { p with
      state := .startBoundary
      index := 0
      lookbehind := writeAt (writeAt p.lookbehind 0 [13]) 1 [10] } }

theorem reaches_nextBoundary {x : Cursor} {data rest : Bytes} {p : Parser}
    (hdrop : buf.drop x.i = data ++ 13 :: 10 :: 45 :: rest)
    (hcb : partDataCb (atPartEnd x data).parser data = (false, p))
    (hmore : x.numPayloads + 1 ≠ p.expectedPayloads) :
    Reaches (turn buf len) (atPartEnd x data) (atNextBoundary x data p) := by
  have hlf := drop_succ_of_drop (drop_add_of_drop hdrop)
  let y : Cursor := { atPartEnd x data with
    numPayloads := x.numPayloads + 1
    mark := x.i + data.length
    i := x.i + data.length + 1
    parser := { p with
      state := .partDataAlmostBoundary, lookbehind := writeAt p.lookbehind 0 [13] } }
  have hfirst : turn buf len (atPartEnd x data) = .more y := by
    rw [turn_atPartEnd hlen hdrop, emitPartData]
    simp only [hcb]
    rfl
  apply (Reaches.step hfirst).trans
  apply Reaches.step
  have hbyte : byteAt buf y.i = 10 := byteAt_of_drop hlf
  rw [turn_of_state (x := y) (lt_of_drop hlen hlf)
    (show y.parser.state = .partDataAlmostBoundary from rfl), stateTurn, partDataAlmostBoundary,
    if_pos hbyte, if_neg (show ¬ y.numPayloads = y.parser.expectedPayloads from hmore)]
  rfl

end PartData

section Part

/-- The text of a part behind its two hyphens. -/
def partText (line contentType data rest : Bytes) : Bytes :=
  line ++ 13 :: 10 :: (contentTypeName ++ 58 :: 32 :: (contentType ++ 13 :: 10 ::
    (contentEncodingName ++ 58 :: 32 :: (base64Encoding ++ 13 :: 10 :: 13 :: 10 ::
      (data ++ 13 :: 10 :: 45 :: rest)))))

/-- The parser when the headers of a part have been read. -/
def partParser (p : Parser) (contentType : Bytes) : Parser :=
  { readHeader (readHeader { p with index := 0 } contentTypeName contentType)
      contentEncodingName base64Encoding with state := .partDataStart }

theorem plainHeader_encoding : PlainHeader contentEncodingName base64Encoding := by
  constructor <;> decide

variable (hlen : buf.length < len)

include hlen

/-- A whole part is read, up to the callback. -/
theorem reaches_part {x : Cursor} (hstate : x.parser.state = .startBoundary)
    {line contentType data rest : Bytes} (hct : PlainHeader contentTypeName contentType)
    (hdata : ∀ c ∈ data, c ≠ 45) (hne : data ≠ [])
    (hdrop : buf.drop x.i = partText line contentType data rest)
    (hindex : x.parser.index + line.length = x.parser.boundary.length) :
    ∃ y, Reaches (turn buf len) x (atPartEnd y data) ∧
      buf.drop y.i = data ++ 13 :: 10 :: 45 :: rest ∧
      y.parser = partParser x.parser contentType ∧ y.numPayloads = x.numPayloads := by
  let first := atHeaders x (x.i + line.length + 2)
  let second := behindValue (behindName first contentTypeName) contentType
  let third := behindValue (behindName second contentEncodingName) base64Encoding
  let y : Cursor := { third with
    mark := third.i, i := third.i + 2, parser := { third.parser with state := .partDataStart } }
  have hfirst : buf.drop first.i = contentTypeName ++ 58 :: 32 :: (contentType ++ 13 :: 10 ::
      (contentEncodingName ++ 58 :: 32 :: (base64Encoding ++ 13 :: 10 :: 13 :: 10 ::
        (data ++ 13 :: 10 :: 45 :: rest)))) :=
    drop_succ_of_drop (drop_succ_of_drop (drop_add_of_drop hdrop))
  have hsecond := drop_headerLine hfirst
  have hthird := drop_headerLine hsecond
  have hdataDrop : buf.drop y.i = data ++ 13 :: 10 :: 45 :: rest :=
    drop_succ_of_drop (drop_succ_of_drop hthird)
  have hparser : y.parser = partParser x.parser contentType := by
    show inState .partDataStart third.parser = _
    rw [headerLine_state, headerLine_state,
      show first.parser = inState .headerFieldStart { x.parser with index := 0 } from rfl,
      readHeader_inState, readHeader_inState]
    rfl
  have hlines : Reaches (turn buf len) first third :=
    (reaches_headerLine hlen rfl hct (by decide) hfirst).trans
      (reaches_headerLine hlen rfl plainHeader_encoding (by decide) hsecond)
  have hstart : Reaches (turn buf len) third y := reaches_partStart hlen rfl rfl hthird
  exact ⟨y, (((reaches_boundary hlen hstate hdrop hindex).trans hlines).trans hstart).trans
    (reaches_atPartEnd hlen rfl hne hdata hdataDrop), hdataDrop, hparser, rfl⟩

end Part

end LibEst.Client.MultipartRead
