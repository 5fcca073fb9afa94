import LibEst.Client.Http

/-! What the multipart parser touches. Each turn of its loop comes with the places that
it reads and writes; where these are, and what the data of a part is then, is said turn
by turn and carried over the whole loop. -/
namespace LibEst.Client.MultipartAccess

open LibEst.Basic LibEst.Lib.ByteString LibEst.Lib.Loop LibEst.Server.AuthHeader
open LibEst.Client.Http LibEst.Client.Multipart

section Accesses

/-- The boundary and what is looked behind for it have arrays of one size. -/
def maxBoundary : Nat := 70
def maxHdrs : Nat := 16

inductive Access where
  | received (i : Nat)
  | boundary (i : Nat)
  | lookbehind (i : Nat)
  | hdr (n : Nat)
  /-- A character of the copy of a header value, which nothing ends. -/
  | value (size i : Nat)
  /-- The front of the array for the key or for the certificate. -/
  | data (n : Nat)

/-- From the start of the parser on there are `limit` places with received bytes and
the zero behind them. -/
def Access.Inside (limit : Nat) : Access → Prop
  | .received i => i < limit
  | .boundary i => i < maxBoundary
  | .lookbehind i => i < maxBoundary
  | .hdr n => n < maxHdrs
  | .value size i => i < size
  | .data n => n ≤ multipartParseDataMax

/-- How many characters of a text `strncmp` looks at. -/
def compared : Bytes → Bytes → Nat
  | [], _ => 0
  | _ :: _, [] => 1
  | e :: expected, c :: text => if c = e then compared expected text + 1 else 1

def comparison (expected value : Bytes) : List Access :=
  (List.range (compared expected value)).map (.value value.length)

/-- The comparisons of `multipart_parser_set_hdr_value`. -/
def comparisons (name value : Bytes) : List Access :=
  if contentTypeName.isPrefixOf name then
    comparison pkcs8Type value ++
      if pkcs8Type.isPrefixOf value then [] else comparison pkcs7Type value
  else if contentEncodingName.isPrefixOf name then comparison base64Encoding value
  else []

def span (mark n : Nat) : List Access := (List.range n).map fun j => .received (mark + j)

/-- The callback for the data, which it reads only behind the two headers. -/
def partAccesses (p : Parser) (source : List Access) (data : Bytes) : List Access :=
  (List.range p.hdrs.length).map .hdr ++
    match findHdr p contentTypeName, findHdr p contentEncodingName with
    | some _, some cte =>
        if ¬ base64Encoding.isPrefixOf cte then []
        else if multipartParseDataMax < data.length then source
        else source ++ [.data data.length]
    | _, _ => []

variable (buf : Bytes) (len : Nat)

/-- The name that a turn hands to its callback. -/
def nameRead (x : Cursor) : Option Bytes :=
  let c := byteAt buf x.i
  if c = 13 then none
  else if c = 58 then some (marked buf x)
  else if 63 < x.i - x.mark ∧ ¬ x.seenHdrDelimiter then none
  else if ¬ isHeaderNameByte c then none
  else if x.i + 1 = len then some (markedLast buf x)
  else none

/-- The value that a turn hands to its callback. -/
def valueRead (x : Cursor) : Option Bytes :=
  if byteAt buf x.i = 13 then some (marked buf x)
  else if x.i + 1 = len then some (markedLast buf x)
  else none

def headerFieldAccesses (x : Cursor) : List Access :=
  match nameRead buf len x with
  | none => []
  | some name => span x.mark name.length ++ [.hdr x.parser.hdrs.length]

def headerValueAccesses (x : Cursor) : List Access :=
  match valueRead buf len x with
  | none => []
  | some value =>
      span x.mark value.length ++
        .hdr x.parser.hdrs.length :: comparisons x.parser.hdrName value

def partDataAccesses (x : Cursor) : List Access :=
  (if byteAt buf x.i = 13 then
      .received (x.i + 1) :: if byteAt buf (x.i + 1) = 45 then [] else [.received (x.i + 2)]
    else []) ++
  if endsPart buf x.i then
    partAccesses x.parser (span x.mark (x.i - x.mark)) (marked buf x) ++ [.lookbehind 0]
  else if x.i + 1 = len then
    partAccesses x.parser (span x.mark (x.i - x.mark + 1)) (markedLast buf x)
  else []

def almostBoundaryAccesses (x : Cursor) : List Access :=
  if byteAt buf x.i = 10 then [.lookbehind 1]
  else partAccesses x.parser [.lookbehind 0] (readFirst x.parser.lookbehind 1)

def boundaryAccesses (x : Cursor) : List Access :=
  let p := x.parser
  .boundary p.index ::
    if p.boundary.getD p.index 0 ≠ byteAt buf x.i then
      partAccesses p ((List.range (2 + p.index)).map .lookbehind)
        (readFirst p.lookbehind (2 + p.index))
    else [.lookbehind (2 + p.index)]

/-- What the branch of a state touches besides the current byte. -/
def stateAccesses (x : Cursor) : State → List Access
  | .headerFieldStart => headerFieldAccesses buf len { x with mark := x.i }
  | .headerField => headerFieldAccesses buf len x
  | .headerValueStart =>
      if byteAt buf x.i = 32 then [] else headerValueAccesses buf len { x with mark := x.i }
  | .headerValue => headerValueAccesses buf len x
  | .headerValueAlmostDone => if byteAt buf x.i = 10 then [.received (x.i + 1)] else []
  | .partDataStart => partDataAccesses buf len { x with mark := x.i }
  | .partData => partDataAccesses buf len x
  | .partDataAlmostBoundary => almostBoundaryAccesses buf x
  | .partDataBoundary => boundaryAccesses buf x
  | _ => []

def accesses (x : Cursor) : List Access :=
  if len ≤ x.i then [] else .received x.i :: stateAccesses buf len x x.parser.state

end Accesses

section Guards

variable (buf : Bytes) (len limit : Nat)

def partLookahead (i : Nat) : Nat :=
  if byteAt buf i = 13 then if byteAt buf (i + 1) = 45 then 1 else 2 else 0

/-- How far a turn looks ahead. -/
def lookahead (x : Cursor) : State → Nat
  | .headerValueAlmostDone => if byteAt buf x.i = 10 then 1 else 0
  | .partDataStart => partLookahead buf x.i
  | .partData => partLookahead buf x.i
  | _ => 0

/-- The value is not the beginning of a longer text that it is compared with. -/
def Decided (expected value : Bytes) : Prop := value <+: expected → value = expected

def DecidedHdr (name value : Bytes) : Prop :=
  if contentTypeName.isPrefixOf name then Decided pkcs8Type value ∧ Decided pkcs7Type value
  else contentEncodingName.isPrefixOf name → Decided base64Encoding value

def RoomForName (x : Cursor) : Prop :=
  ∀ name, nameRead buf len x = some name → x.parser.hdrs.length < maxHdrs

def ValueDecided (x : Cursor) : Prop :=
  ∀ value, valueRead buf len x = some value → DecidedHdr x.parser.hdrName value

/-- The headers of a part have room, their values can be told apart by comparing, and
the boundary does not fill the array it is put together in. -/
def StateGuard (x : Cursor) : State → Prop
  | .headerFieldStart => RoomForName buf len { x with mark := x.i }
  | .headerField => RoomForName buf len x
  | .headerValueStart => byteAt buf x.i ≠ 32 → ValueDecided buf len { x with mark := x.i }
  | .headerValue => ValueDecided buf len x
  | .partDataBoundary =>
      x.parser.boundary.getD x.parser.index 0 = byteAt buf x.i → 2 + x.parser.index < maxBoundary
  | _ => True

/-- The condition on a turn: it stays in front of the limit. -/
structure Guard (x : Cursor) : Prop where
  ahead : x.i + lookahead buf x x.parser.state < limit
  state : StateGuard buf len x x.parser.state

/-- Both texts are there, and long enough to be handed out. -/
def Delivers (p : Parser) : Prop :=
  bothPopulated p = true ∧ estMinClientPkeyLen ≤ p.keyData.length ∧
    estMinClientCertLen ≤ p.certData.length

/-- The part that completes the answer is in the body, and does not go on to the zero
behind it. -/
def LastInBody (body : Bytes) (x : Cursor) : Prop :=
  endsPart buf x.i = false → x.i + 1 = len →
    Delivers (partDataCb x.parser (markedLast buf x)).2 → markedLast buf x <:+: body

def Clean (body : Bytes) (x : Cursor) : State → Prop
  | .partDataStart => LastInBody buf len body { x with mark := x.i }
  | .partData => LastInBody buf len body x
  | _ => True

end Guards

section Callback

/-- The callback has nothing to do with the data: one of its two headers is not there. -/
def Idle (p : Parser) : Prop :=
  ∀ ct cte, findHdr p contentTypeName = some ct → findHdr p contentEncodingName = some cte →
    ¬ base64Encoding.isPrefixOf cte

theorem partDataCb_idle {p : Parser} (h : Idle p) (data : Bytes) :
    partDataCb p data = (false, p) := by
  unfold partDataCb
  cases hct : findHdr p contentTypeName with
  | none => rfl
  | some ct =>
    cases hcte : findHdr p contentEncodingName with
    | none => rfl
    | some cte =>
      dsimp only
      rw [if_pos (h ct cte hct hcte)]

/-- What the callback leaves of a parser that did not have both texts. -/
structure Stores (p : Parser) (data : Bytes) (q : Parser) : Prop where
  boundary : q.boundary = p.boundary
  hdrs : q.hdrs.length ≤ p.hdrs.length
  key : q.keyData = p.keyData ∨ q.keyData = data
  cert : q.certData = p.certData ∨ q.certData = data
  fresh : bothPopulated q = true → q.keyData = data ∨ q.certData = data

/-- A part is done with: the parser stops with both texts, or goes on without headers. -/
def Done (p : Parser) (data : Bytes) (result : Bool × Parser) : Prop :=
  Stores p data result.2 ∧
    (result.1 = false → bothPopulated result.2 = false ∧ Idle result.2)

theorem done_unchanged {p : Parser} {data : Bytes} {stop : Bool} (hmissing : bothPopulated p = false)
    (hidle : stop = false → Idle p) : Done p data (stop, p) := by
  refine ⟨⟨rfl, le_refl _, .inl rfl, .inl rfl, ?_⟩, fun h => ⟨hmissing, hidle h⟩⟩
  intro hboth
  rw [hmissing] at hboth
  cases hboth

theorem done_partDone {p q : Parser} {data : Bytes} (hboundary : q.boundary = p.boundary)
    (hhdrs : q.hdrs = p.hdrs) (hkey : q.keyData = p.keyData ∨ q.keyData = data)
    (hcert : q.certData = p.certData ∨ q.certData = data)
    (hfresh : bothPopulated q = true → q.keyData = data ∨ q.certData = data) :
    Done p data (partDone q) := by
  unfold partDone
  cases hboth : bothPopulated q with
  | true =>
    rw [if_pos rfl]
    exact ⟨⟨hboundary, (congrArg List.length hhdrs).le, hkey, hcert, hfresh⟩, nofun⟩
  | false =>
    rw [if_neg Bool.false_ne_true]
    refine ⟨⟨hboundary, Nat.zero_le _, hkey, hcert, hfresh⟩, fun _ => ⟨hboth, ?_⟩⟩
    intro ct cte hct
    cases hct

theorem partDataCb_done {p : Parser} (hmissing : bothPopulated p = false) (data : Bytes) :
    Done p data (partDataCb p data) := by
  unfold partDataCb
  cases hct : findHdr p contentTypeName with
  | none =>
    apply done_unchanged hmissing
    intro _ ct cte hsome
    rw [hct] at hsome
    cases hsome
  | some ct =>
    cases hcte : findHdr p contentEncodingName with
    | none =>
      apply done_unchanged hmissing
      intro _ ct cte _ hsome
      rw [hcte] at hsome
      cases hsome
    | some cte =>
      dsimp only
      split
      · rename_i hbase64
        apply done_unchanged hmissing
        intro _ ct' cte' _ hsome
        rw [hcte] at hsome
        cases hsome
        exact hbase64
      · split
        · exact done_unchanged hmissing nofun
        · split
          · split
            · exact done_unchanged hmissing nofun
            · exact done_partDone rfl rfl (.inr rfl) (.inl rfl) fun _ => .inl rfl
          · split
            · split
              · exact done_unchanged hmissing nofun
              · exact done_partDone rfl rfl (.inl rfl) (.inr rfl) fun _ => .inr rfl
            · apply done_partDone rfl rfl (.inl rfl) (.inl rfl)
              intro hboth
              rw [hmissing] at hboth
              cases hboth

end Callback

section Invariant

variable {buf : Bytes} {len limit : Nat} {body boundary : Bytes}

/-- What a parser has in any state. -/
structure Sound (boundary : Bytes) (p : Parser) : Prop where
  boundary : p.boundary = boundary
  hdrs : p.hdrs.length ≤ maxHdrs
  missing : bothPopulated p = false

/-- What it has in a state besides. -/
def InState (p : Parser) : State → Prop
  | .headerValueStart => p.hdrs.length < maxHdrs
  | .headerValue => p.hdrs.length < maxHdrs
  | .partDataAlmostBoundary => Idle p
  | .partDataBoundary => Idle p ∧ p.index < p.boundary.length
  | _ => True

/-- The texts that are there come from the body. -/
def Kept (body : Bytes) (p : Parser) : Prop := p.keyData <:+: body ∧ p.certData <:+: body

/-- What holds in front of every turn; behind the last byte only what the result
depends on. -/
structure Inv (len : Nat) (body boundary : Bytes) (x : Cursor) : Prop where
  sound : Sound boundary x.parser
  mark : x.mark ≤ x.i
  kept : x.i < len → Kept body x.parser
  state : x.i < len → InState x.parser x.parser.state

/-- What a result is that hands out the two texts. -/
def Post (body : Bytes) (r : Parsed) : Prop := Delivers r.2 → Kept body r.2

/-- A turn keeps the invariant, or stops with texts from the body. -/
def Keeps (len : Nat) (body boundary : Bytes) (clean : Prop) : Turn Cursor Parsed → Prop
  | .more next => Inv len body boundary next
  | .stop r => clean → Post body r

/-- A parser with the same headers and texts. -/
structure SameStore (p q : Parser) : Prop where
  boundary : q.boundary = p.boundary
  hdrs : q.hdrs = p.hdrs
  key : q.keyData = p.keyData
  cert : q.certData = p.certData

theorem SameStore.bothPopulated {p q : Parser} (h : SameStore p q) :
    bothPopulated q = bothPopulated p := by
  unfold Multipart.bothPopulated
  rw [h.key, h.cert]

theorem SameStore.sound {p q : Parser} (h : SameStore p q) (hp : Sound boundary p) :
    Sound boundary q :=
  ⟨h.boundary.trans hp.boundary, h.hdrs ▸ hp.hdrs, h.bothPopulated.trans hp.missing⟩

theorem SameStore.kept {p q : Parser} (h : SameStore p q) (hp : Kept body p) : Kept body q :=
  ⟨h.key ▸ hp.1, h.cert ▸ hp.2⟩

theorem keeps_stop {clean : Prop} {i : Nat} {p : Parser} (hp : Sound boundary p) :
    Keeps len body boundary clean (.stop (i, p)) := by
  intro _ hdelivers
  have hboth := hdelivers.1
  rw [hp.missing] at hboth
  cases hboth

variable {x y : Cursor} {clean : Prop}

/-- The part of the invariant that does not depend on the state. -/
structure Base (len : Nat) (body boundary : Bytes) (x : Cursor) : Prop where
  sound : Sound boundary x.parser
  mark : x.mark ≤ x.i
  kept : x.i < len → Kept body x.parser

theorem Inv.base (h : Inv len body boundary x) : Base len body boundary x :=
  ⟨h.sound, h.mark, h.kept⟩

theorem Base.marked (h : Base len body boundary x) :
    Base len body boundary { x with mark := x.i } :=
  ⟨h.sound, le_refl _, h.kept⟩

theorem keeps_moved {state : State} (hsound : Sound boundary y.parser) (hmark : y.mark ≤ y.i + 1)
    (hkept : y.i + 1 < len → Kept body y.parser)
    (hstate : y.i + 1 < len → InState y.parser state) :
    Keeps len body boundary clean (goTo state y) := by
  refine ⟨⟨hsound.boundary, hsound.hdrs, hsound.missing⟩, hmark, hkept, ?_⟩
  intro hlen
  have hin := hstate hlen
  cases state <;> exact hin

/-- On to a state with the same headers and texts. -/
theorem keeps_goTo {state : State} (h : Base len body boundary x)
    (hsame : SameStore x.parser y.parser) (hi : x.i ≤ y.i) (hmark : y.mark ≤ y.i)
    (hstate : y.i + 1 < len → InState y.parser state) :
    Keeps len body boundary clean (goTo state y) :=
  keeps_moved (hsame.sound h.sound) (Nat.le_succ_of_le hmark)
    (fun hlen => hsame.kept (h.kept (by omega))) hstate

theorem keeps_startBoundary (h : Base len body boundary x) :
    Keeps len body boundary clean (startBoundary buf x) := by
  unfold startBoundary
  dsimp only
  split
  · split
    · exact keeps_goTo h ⟨rfl, rfl, rfl, rfl⟩ (le_refl _) h.mark fun _ => trivial
    · split
      · exact keeps_goTo h ⟨rfl, rfl, rfl, rfl⟩ (le_refl _) h.mark fun _ => trivial
      · exact keeps_stop h.sound
  · split
    · split
      · exact keeps_goTo h ⟨rfl, rfl, rfl, rfl⟩ (le_refl _) h.mark fun _ => trivial
      · exact keeps_stop h.sound
    · exact keeps_goTo h ⟨rfl, rfl, rfl, rfl⟩ (le_refl _) h.mark fun _ => trivial

theorem keeps_headerField (h : Base len body boundary x) (hroom : RoomForName buf len x) :
    Keeps len body boundary clean (headerField buf len x) := by
  unfold RoomForName nameRead at hroom
  dsimp only at hroom
  unfold headerField
  dsimp only
  split
  · exact keeps_goTo h ⟨rfl, rfl, rfl, rfl⟩ (le_refl _) h.mark fun _ => trivial
  · rename_i hcr
    rw [if_neg hcr] at hroom
    split
    · rename_i hcolon
      rw [if_pos hcolon] at hroom
      exact keeps_goTo h ⟨rfl, rfl, rfl, rfl⟩ (le_refl _) h.mark fun _ => hroom _ rfl
    · split
      · exact keeps_stop h.sound
      · split
        · exact keeps_stop h.sound
        · split
          · exact keeps_goTo h ⟨rfl, rfl, rfl, rfl⟩ (le_refl _) h.mark fun _ => trivial
          · exact keeps_goTo h ⟨rfl, rfl, rfl, rfl⟩ (le_refl _) h.mark fun _ => trivial

theorem keeps_headersAlmostDone (h : Base len body boundary x) :
    Keeps len body boundary clean (headersAlmostDone buf x) := by
  unfold headersAlmostDone
  split
  · exact keeps_stop h.sound
  · split
    · exact keeps_goTo h ⟨rfl, rfl, rfl, rfl⟩ (le_refl _) h.mark fun _ => trivial
    · exact keeps_goTo h ⟨rfl, rfl, rfl, rfl⟩ (le_refl _) h.mark fun _ => trivial

theorem sound_readHeaderValue {p : Parser} (hp : Sound boundary p)
    (hroom : p.hdrs.length < maxHdrs) (value : Bytes) :
    Sound boundary (readHeaderValue p value) := by
  unfold readHeaderValue
  split
  · exact ⟨hp.boundary, hroom, hp.missing⟩
  · exact ⟨hp.boundary, hp.hdrs, hp.missing⟩

theorem kept_readHeaderValue {p : Parser} (hp : Kept body p) (value : Bytes) :
    Kept body (readHeaderValue p value) := by
  unfold readHeaderValue
  split <;> exact hp

theorem keeps_headerValue (h : Base len body boundary x) (hlen : x.i < len)
    (hroom : x.parser.hdrs.length < maxHdrs) :
    Keeps len body boundary clean (headerValue buf len x) := by
  have hmark : x.mark ≤ x.i + 1 := Nat.le_succ_of_le h.mark
  unfold headerValue
  dsimp only
  split
  · exact keeps_moved (sound_readHeaderValue h.sound hroom _) hmark
      (fun _ => kept_readHeaderValue (h.kept hlen) _) fun _ => trivial
  · split
    · rename_i hlast
      -- the loop ends here, and nobody asks for room any more
      exact keeps_moved (sound_readHeaderValue h.sound hroom _) hmark
        (fun _ => kept_readHeaderValue (h.kept hlen) _) fun hmore => absurd hlast hmore.ne
    · exact keeps_goTo h ⟨rfl, rfl, rfl, rfl⟩ (le_refl _) h.mark fun _ => hroom

theorem keeps_headerValueAlmostDone (h : Base len body boundary x) :
    Keeps len body boundary clean (headerValueAlmostDone buf x) := by
  unfold headerValueAlmostDone
  split
  · exact keeps_stop h.sound
  · split
    · exact keeps_goTo h ⟨rfl, rfl, rfl, rfl⟩ (Nat.le_add_right _ _)
        (h.mark.trans (Nat.le_add_right _ _)) fun _ => trivial
    · exact keeps_goTo h ⟨rfl, rfl, rfl, rfl⟩ (le_refl _) h.mark fun _ => trivial

theorem readFirst_isInfix {mark n : Nat} (h : mark + n ≤ buf.length) :
    readFirst (buf.drop mark) n <:+: buf := by
  have htake : readFirst (buf.drop mark) n = (buf.drop mark).take n := by
    rw [readFirst, List.take_append_of_le_length (by rw [List.length_drop]; omega)]
  rw [htake]
  exact (List.take_prefix n _).isInfix.trans (List.drop_suffix mark buf).isInfix

theorem marked_infix (h : Base len body boundary x) (hi : x.i ≤ buf.length) (hbuf : buf <:+ body) :
    marked buf x <:+: body := by
  have hmark := h.mark
  exact (readFirst_isInfix (by omega)).trans hbuf.isInfix

theorem Stores.sound {p q : Parser} {data : Bytes} (h : Stores p data q) (hp : Sound boundary p)
    (hmissing : bothPopulated q = false) : Sound boundary q :=
  ⟨h.boundary.trans hp.boundary, h.hdrs.trans hp.hdrs, hmissing⟩

theorem Stores.kept {p q : Parser} {data : Bytes} (h : Stores p data q) (hp : Kept body p)
    (hdata : data <:+: body) : Kept body q := by
  refine ⟨?_, ?_⟩
  · rcases h.key with hkey | hkey
    · exact hkey ▸ hp.1
    · exact hkey ▸ hdata
  · rcases h.cert with hcert | hcert
    · exact hcert ▸ hp.2
    · exact hcert ▸ hdata

theorem keeps_partData (h : Base len body boundary x) (hlen : x.i < len) (hi : x.i ≤ buf.length)
    (hbuf : buf <:+ body) :
    Keeps len body boundary (LastInBody buf len body x) (partData buf len x) := by
  have hkept := h.kept hlen
  unfold partData
  split
  · have hdata := marked_infix h hi hbuf
    have hdone := partDataCb_done h.sound.missing (marked buf x)
    unfold emitPartData
    dsimp only
    generalize partDataCb x.parser (marked buf x) = result at hdone
    obtain ⟨stop, p⟩ := result
    cases stop with
    | true =>
      intro _ _
      exact hdone.1.kept hkept hdata
    | false =>
      obtain ⟨hmissing, hidle⟩ := hdone.2 rfl
      have hsound := hdone.1.sound h.sound hmissing
      exact keeps_moved ⟨hsound.boundary, hsound.hdrs, hsound.missing⟩ (Nat.le_succ _)
        (fun _ => hdone.1.kept hkept hdata) fun _ => hidle
  · rename_i hends
    split
    · rename_i hlast
      have hdone := partDataCb_done h.sound.missing (markedLast buf x)
      unfold LastInBody emitPartData
      generalize partDataCb x.parser (markedLast buf x) = result at hdone
      obtain ⟨stop, p⟩ := result
      cases stop with
      | true =>
        intro hclean hdelivers
        exact hdone.1.kept hkept (hclean (by simpa using hends) hlast hdelivers)
      | false =>
        have hsound := hdone.1.sound h.sound (hdone.2 rfl).1
        exact keeps_moved hsound (Nat.le_succ_of_le h.mark)
          (fun hmore => absurd hlast hmore.ne) fun _ => trivial
    · exact keeps_goTo h ⟨rfl, rfl, rfl, rfl⟩ (le_refl _) h.mark fun _ => trivial

/-- Back to the current byte with the same headers and texts. -/
theorem keeps_again {next : Cursor} (h : Base len body boundary x)
    (hsame : SameStore x.parser next.parser) (hi : next.i = x.i) (hmark : next.mark = x.i)
    (hstate : InState next.parser next.parser.state) :
    Keeps len body boundary clean (.more next) :=
  ⟨hsame.sound h.sound, by rw [hi, hmark], fun hlen => hsame.kept (h.kept (hi ▸ hlen)),
    fun _ => hstate⟩

theorem keeps_partDataAlmostBoundary (h : Base len body boundary x) (hne : boundary ≠ [])
    (hidle : Idle x.parser) :
    Keeps len body boundary clean (partDataAlmostBoundary buf x) := by
  unfold partDataAlmostBoundary
  split
  · dsimp only
    apply keeps_goTo h
    · exact ⟨rfl, rfl, rfl, rfl⟩
    · exact Nat.le_add_right _ _
    · exact h.mark.trans (Nat.le_add_right _ _)
    intro _
    split
    · refine ⟨hidle, ?_⟩
      show 0 < x.parser.boundary.length
      rw [h.sound.boundary]
      exact List.length_pos_of_ne_nil hne
    · trivial
  · rw [emitPartData, partDataCb_idle hidle]
    exact keeps_again h ⟨rfl, rfl, rfl, rfl⟩ rfl rfl trivial

theorem keeps_partDataBoundary (h : Base len body boundary x) (hidle : Idle x.parser)
    (hindex : x.parser.index < x.parser.boundary.length) :
    Keeps len body boundary clean (partDataBoundary buf x) := by
  unfold partDataBoundary
  dsimp only
  split
  · rw [emitPartData, partDataCb_idle hidle]
    exact keeps_again h ⟨rfl, rfl, rfl, rfl⟩ rfl rfl trivial
  · split
    · exact keeps_goTo h ⟨rfl, rfl, rfl, rfl⟩ (le_refl _) h.mark fun _ => trivial
    · rename_i hmore
      refine keeps_goTo h ⟨rfl, rfl, rfl, rfl⟩ (le_refl _) h.mark fun _ => ⟨hidle, ?_⟩
      exact Nat.lt_of_le_of_ne hindex hmore

theorem keeps_partDataAlmostEnd (h : Base len body boundary x) :
    Keeps len body boundary clean (partDataAlmostEnd buf x) := by
  unfold partDataAlmostEnd
  split
  · exact keeps_goTo h ⟨rfl, rfl, rfl, rfl⟩ (le_refl _) h.mark fun _ => trivial
  · split
    · exact keeps_goTo h ⟨rfl, rfl, rfl, rfl⟩ (le_refl _) h.mark fun _ => trivial
    · exact keeps_stop h.sound

theorem keeps_partDataFinalHyphen (h : Base len body boundary x) :
    Keeps len body boundary clean (partDataFinalHyphen buf x) := by
  unfold partDataFinalHyphen
  split
  · exact keeps_goTo h ⟨rfl, rfl, rfl, rfl⟩ (le_refl _) h.mark fun _ => trivial
  · exact keeps_stop h.sound

theorem keeps_partDataEnd (h : Base len body boundary x) :
    Keeps len body boundary clean (partDataEnd buf x) := by
  unfold partDataEnd
  split
  · exact keeps_goTo h ⟨rfl, rfl, rfl, rfl⟩ (le_refl _) h.mark fun _ => trivial
  · exact keeps_stop h.sound

/-- One turn, from a cursor that meets the condition. -/
theorem turn_keeps (hne : boundary ≠ []) (hbuf : buf <:+ body) (hlimit : limit ≤ buf.length + 1)
    (h : Inv len body boundary x) (hguard : x.i < len → Guard buf len limit x) :
    Keeps len body boundary (Clean buf len body x x.parser.state) (turn buf len x) := by
  unfold turn
  split
  · exact keeps_stop h.sound
  · rename_i hlen
    have hlt : x.i < len := Nat.lt_of_not_le hlen
    obtain ⟨hahead, hstate⟩ := hguard hlt
    have hi : x.i ≤ buf.length := by omega
    have hin := h.state hlt
    have hbase := h.base
    unfold stateTurn Clean
    unfold StateGuard at hstate
    unfold InState at hin
    cases hcase : x.parser.state with
    | start =>
      apply keeps_startBoundary
      exact ⟨⟨h.sound.boundary, h.sound.hdrs, h.sound.missing⟩, h.mark, h.kept⟩
    | startBoundary => exact keeps_startBoundary hbase
    | headerFieldStart =>
      rw [hcase] at hstate
      exact keeps_headerField hbase.marked hstate
    | headerField =>
      rw [hcase] at hstate
      exact keeps_headerField hbase hstate
    | headersAlmostDone => exact keeps_headersAlmostDone hbase
    | headerValueStart =>
      rw [hcase] at hin
      dsimp only
      split
      · exact keeps_goTo hbase ⟨rfl, rfl, rfl, rfl⟩ (le_refl _) h.mark fun _ => hin
      · exact keeps_headerValue hbase.marked hlt hin
    | headerValue =>
      rw [hcase] at hin
      exact keeps_headerValue hbase hlt hin
    | headerValueAlmostDone => exact keeps_headerValueAlmostDone hbase
    | partDataStart => exact keeps_partData hbase.marked hlt hi hbuf
    | partData => exact keeps_partData hbase hlt hi hbuf
    | partDataAlmostBoundary =>
      rw [hcase] at hin
      exact keeps_partDataAlmostBoundary hbase hne hin
    | partDataBoundary =>
      rw [hcase] at hin
      exact keeps_partDataBoundary hbase hin.1 hin.2
    | partDataAlmostEnd => exact keeps_partDataAlmostEnd hbase
    | partDataEnd => exact keeps_partDataEnd hbase
    | partDataFinalHyphen => exact keeps_partDataFinalHyphen hbase
    | «end» => exact keeps_goTo hbase ⟨rfl, rfl, rfl, rfl⟩ (le_refl _) h.mark fun _ => trivial

end Invariant

section Inside

variable {buf : Bytes} {len limit : Nat} {body boundary : Bytes} {x : Cursor}

/-- All of the places are inside. -/
def AllInside (limit : Nat) (places : List Access) : Prop := ∀ a ∈ places, a.Inside limit

theorem allInside_nil : AllInside limit [] := fun _ h => absurd h List.not_mem_nil

theorem allInside_cons {a : Access} {places : List Access} :
    AllInside limit (a :: places) ↔ a.Inside limit ∧ AllInside limit places :=
  List.forall_mem_cons

theorem allInside_append {front back : List Access} :
    AllInside limit (front ++ back) ↔ AllInside limit front ∧ AllInside limit back :=
  List.forall_mem_append

theorem allInside_singleton {a : Access} : AllInside limit [a] ↔ a.Inside limit := by
  rw [allInside_cons]
  exact and_iff_left allInside_nil

theorem allInside_range {n : Nat} {f : Nat → Access} :
    AllInside limit ((List.range n).map f) ↔ ∀ j < n, (f j).Inside limit := by
  simp [AllInside]

theorem allInside_span {mark n : Nat} (h : mark + n ≤ limit) : AllInside limit (span mark n) := by
  rw [span, allInside_range]
  intro j hj
  show mark + j < limit
  omega

/-- A comparison stays inside of a value unless the value ends before there is a
difference. -/
theorem compared_le_iff (expected value : Bytes) :
    compared expected value ≤ value.length ↔ Decided expected value := by
  induction expected generalizing value with
  | nil =>
    refine ⟨fun _ hprefix => List.prefix_nil.mp hprefix, fun _ => Nat.zero_le _⟩
  | cons e expected ih =>
    cases value with
    | nil =>
      refine ⟨fun h => absurd h (by simp [compared]), fun h => ?_⟩
      cases h List.nil_prefix
    | cons c value =>
      rw [compared, List.length_cons]
      by_cases hc : c = e
      · rw [if_pos hc, Nat.add_le_add_iff_right, ih, hc, Decided, Decided,
          List.cons_prefix_cons, and_iff_right rfl, List.cons_inj_right]
      · rw [if_neg hc]
        refine ⟨fun _ hprefix => absurd (List.cons_prefix_cons.mp hprefix).1 hc, fun _ => ?_⟩
        exact Nat.le_add_left 1 _

theorem comparison_inside_iff (expected value : Bytes) :
    AllInside limit (comparison expected value) ↔ Decided expected value := by
  rw [comparison, allInside_range, ← compared_le_iff]
  exact ⟨fun h => Nat.le_of_not_lt fun hlt => absurd (h _ hlt) (Nat.lt_irrefl _),
    fun h j hj => Nat.lt_of_lt_of_le hj h⟩

theorem decided_pkcs7 {value : Bytes} (h : pkcs8Type <+: value) : Decided pkcs7Type value :=
  fun hprefix => absurd (h.trans hprefix) (by decide)

theorem comparisons_inside_iff (name value : Bytes) :
    AllInside limit (comparisons name value) ↔ DecidedHdr name value := by
  unfold comparisons DecidedHdr
  split
  · rw [allInside_append, comparison_inside_iff]
    split
    · rename_i hpkcs8
      have hdecided := decided_pkcs7 (List.isPrefixOf_iff_prefix.mp hpkcs8)
      exact and_congr_right fun _ => ⟨fun _ => hdecided, fun _ => allInside_nil⟩
    · rw [comparison_inside_iff]
  · split
    · rename_i hname
      rw [comparison_inside_iff]
      exact ⟨fun h _ => h, fun h => h hname⟩
    · rename_i hname
      exact ⟨fun _ h => absurd h hname, fun _ => allInside_nil⟩

theorem nameRead_length {name : Bytes} (hmark : x.mark ≤ x.i) (h : nameRead buf len x = some name) :
    x.mark + name.length ≤ x.i + 1 := by
  unfold nameRead marked markedLast at h
  dsimp only at h
  split_ifs at h <;> cases h <;> rw [readFirst_length] <;> omega

theorem valueRead_length {value : Bytes} (hmark : x.mark ≤ x.i)
    (h : valueRead buf len x = some value) : x.mark + value.length ≤ x.i + 1 := by
  unfold valueRead marked markedLast at h
  split_ifs at h <;> cases h <;> rw [readFirst_length] <;> omega

theorem headerField_inside_iff (hmark : x.mark ≤ x.i) (hi : x.i < limit) :
    AllInside limit (headerFieldAccesses buf len x) ↔ RoomForName buf len x := by
  unfold headerFieldAccesses RoomForName
  cases hname : nameRead buf len x with
  | none => exact ⟨fun _ _ h => (nomatch h), fun _ => allInside_nil⟩
  | some name =>
    have hlength := nameRead_length hmark hname
    dsimp only
    rw [allInside_append, allInside_singleton, and_iff_right (allInside_span (by omega))]
    exact ⟨fun h _ _ => h, fun h => h name rfl⟩

theorem headerValue_inside_iff (hmark : x.mark ≤ x.i) (hi : x.i < limit)
    (hroom : x.parser.hdrs.length < maxHdrs) :
    AllInside limit (headerValueAccesses buf len x) ↔ ValueDecided buf len x := by
  unfold headerValueAccesses ValueDecided
  cases hvalue : valueRead buf len x with
  | none => exact ⟨fun _ _ h => (nomatch h), fun _ => allInside_nil⟩
  | some value =>
    have hlength := valueRead_length hmark hvalue
    dsimp only
    rw [allInside_append, allInside_cons, and_iff_right (allInside_span (by omega)),
      and_iff_right (show (Access.hdr x.parser.hdrs.length).Inside limit from hroom),
      comparisons_inside_iff]
    exact ⟨fun h _ hsome => Option.some.inj hsome ▸ h, fun h => h value rfl⟩

theorem partAccesses_inside {p : Parser} (hp : p.hdrs.length ≤ maxHdrs) {source : List Access}
    (hsource : AllInside limit source) (data : Bytes) :
    AllInside limit (partAccesses p source data) := by
  unfold partAccesses
  rw [allInside_append, allInside_range]
  refine ⟨fun j hj => Nat.lt_of_lt_of_le hj hp, ?_⟩
  split
  · split
    · exact allInside_nil
    · split
      · exact hsource
      · rename_i hroom
        rw [allInside_append, allInside_singleton]
        exact ⟨hsource, Nat.le_of_not_lt hroom⟩
  · exact allInside_nil

theorem partData_inside_iff (h : Sound boundary x.parser) (hmark : x.mark ≤ x.i) (hi : x.i < limit) :
    AllInside limit (partDataAccesses buf len x) ↔ x.i + partLookahead buf x.i < limit := by
  have hsecond : AllInside limit
      (if endsPart buf x.i then
        partAccesses x.parser (span x.mark (x.i - x.mark)) (marked buf x) ++ [.lookbehind 0]
      else if x.i + 1 = len then
        partAccesses x.parser (span x.mark (x.i - x.mark + 1)) (markedLast buf x)
      else []) := by
    split
    · rw [allInside_append, allInside_singleton]
      exact ⟨partAccesses_inside h.hdrs (allInside_span (by omega)) _,
        show 0 < maxBoundary by decide⟩
    · split
      · exact partAccesses_inside h.hdrs (allInside_span (by omega)) _
      · exact allInside_nil
  unfold partDataAccesses
  rw [allInside_append, and_iff_left hsecond, partLookahead]
  split
  · split
    · rw [allInside_singleton]
      rfl
    · rw [allInside_cons, allInside_singleton]
      refine ⟨fun hboth => hboth.2, fun hlast => ⟨?_, hlast⟩⟩
      show x.i + 1 < limit
      omega
  · exact ⟨fun _ => hi, fun _ => allInside_nil⟩

/-- The same with the current byte, which comes first. -/
theorem partData_reads_iff (h : Sound boundary x.parser) (hmark : x.mark ≤ x.i) :
    (x.i < limit ∧ AllInside limit (partDataAccesses buf len x)) ↔
      x.i + partLookahead buf x.i < limit := by
  refine ⟨fun hboth => (partData_inside_iff h hmark hboth.1).mp hboth.2, fun hahead => ?_⟩
  have hi : x.i < limit := Nat.lt_of_le_of_lt (Nat.le_add_right _ _) hahead
  exact ⟨hi, (partData_inside_iff h hmark hi).mpr hahead⟩

theorem boundary_inside_iff (h : Sound boundary x.parser) (hfits : boundary.length < maxBoundary)
    (hindex : x.parser.index < x.parser.boundary.length) :
    AllInside limit (boundaryAccesses buf x) ↔
      (x.parser.boundary.getD x.parser.index 0 = byteAt buf x.i →
        2 + x.parser.index < maxBoundary) := by
  rw [h.boundary] at hindex
  have hread : (Access.boundary x.parser.index).Inside limit := hindex.trans hfits
  have hlast : boundary.length ≤ 69 := Nat.le_of_lt_succ hfits
  unfold boundaryAccesses
  dsimp only
  rw [allInside_cons, and_iff_right hread]
  by_cases hsame : x.parser.boundary.getD x.parser.index 0 = byteAt buf x.i
  · rw [if_neg (not_not.mpr hsame), allInside_singleton]
    exact ⟨fun hinside _ => hinside, fun hinside => hinside hsame⟩
  · rw [if_pos hsame]
    refine ⟨fun _ heq => absurd heq hsame, fun _ => partAccesses_inside h.hdrs ?_ _⟩
    rw [allInside_range]
    intro j hj
    show j < 70
    omega

theorem guard_iff {x : Cursor} {state : State} (hstate : x.parser.state = state) :
    Guard buf len limit x ↔
      x.i + lookahead buf x state < limit ∧ StateGuard buf len x state := by
  subst hstate
  exact ⟨fun h => ⟨h.ahead, h.state⟩, fun h => ⟨h.1, h.2⟩⟩

/-- The places of a turn are inside exactly where the turn meets its condition. -/
theorem accesses_inside_iff (hfits : boundary.length < maxBoundary) (h : Inv len body boundary x)
    (hlen : x.i < len) :
    AllInside limit (accesses buf len x) ↔ Guard buf len limit x := by
  have hin := h.state hlen
  have hmarked : { x with mark := x.i }.mark ≤ { x with mark := x.i }.i := le_refl _
  unfold accesses
  rw [if_neg (Nat.not_le_of_lt hlen), allInside_cons, show (Access.received x.i).Inside limit ↔
    x.i < limit from Iff.rfl]
  cases hcase : x.parser.state with
  | headerFieldStart =>
    rw [guard_iff hcase]
    exact and_congr_right fun hi => headerField_inside_iff hmarked hi
  | headerField =>
    rw [guard_iff hcase]
    exact and_congr_right fun hi => headerField_inside_iff h.mark hi
  | headerValueStart =>
    rw [hcase] at hin
    rw [guard_iff hcase]
    refine and_congr_right fun hi => ?_
    rw [stateAccesses, StateGuard]
    split
    · rename_i hspace
      exact ⟨fun _ hne => absurd hspace hne, fun _ => allInside_nil⟩
    · rename_i hspace
      rw [headerValue_inside_iff hmarked hi hin]
      exact ⟨fun hvalue _ => hvalue, fun hvalue => hvalue hspace⟩
  | headerValue =>
    rw [hcase] at hin
    rw [guard_iff hcase]
    exact and_congr_right fun hi => headerValue_inside_iff h.mark hi hin
  | headerValueAlmostDone =>
    rw [guard_iff hcase]
    dsimp only [stateAccesses, lookahead, StateGuard]
    split
    · rw [allInside_singleton, and_iff_left trivial]
      exact ⟨fun hboth => hboth.2, fun hnext => ⟨Nat.lt_of_succ_lt hnext, hnext⟩⟩
    · exact ⟨fun hboth => ⟨hboth.1, trivial⟩, fun hboth => ⟨hboth.1, allInside_nil⟩⟩
  | partDataStart =>
    rw [guard_iff hcase]
    exact (partData_reads_iff (x := { x with mark := x.i }) h.sound hmarked).trans
      (and_iff_left trivial).symm
  | partData =>
    rw [guard_iff hcase]
    exact (partData_reads_iff h.sound h.mark).trans (and_iff_left trivial).symm
  | partDataAlmostBoundary =>
    rw [guard_iff hcase]
    refine and_congr_right fun _ => ⟨fun _ => trivial, fun _ => ?_⟩
    have hfront (i : Nat) (hi : i < 2) : (Access.lookbehind i).Inside limit :=
      Nat.lt_trans hi (by decide)
    rw [stateAccesses, almostBoundaryAccesses]
    split
    · exact allInside_singleton.mpr (hfront 1 (by decide))
    · exact partAccesses_inside h.sound.hdrs (allInside_singleton.mpr (hfront 0 (by decide))) _
  | partDataBoundary =>
    rw [hcase] at hin
    rw [guard_iff hcase]
    exact and_congr_right fun _ => boundary_inside_iff h.sound hfits hin.2
  | start | startBoundary | headersAlmostDone | partDataAlmostEnd | partDataEnd
    | partDataFinalHyphen | «end» =>
    rw [guard_iff hcase]
    exact and_congr_right fun _ => ⟨fun _ => trivial, fun _ => allInside_nil⟩

end Inside

end LibEst.Client.MultipartAccess
