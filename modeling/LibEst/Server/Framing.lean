import LibEst.Lib.Loop
import LibEst.Server.HttpMessage

/-! Requests on a connection that stays open. The bytes of a client come in reads of
any size into one buffer; a request is cut off its front, and what is left over is
where the next one begins. -/
namespace LibEst.Server.Framing

open LibEst.Basic LibEst.Base64 LibEst.Lib.ByteString LibEst.Lib.Loop LibEst.SafeStr
open LibEst.Server.AuthHeader LibEst.Client.Http LibEst.Server.HttpMessage

def maxRequestSize : Nat := 16384
def estMaxContentLen : Int := 8192

section Reading

/-- One wait for the socket and one `SSL_read`. -/
inductive Cut where
  | data (more : Nat)
  | wantRead
  | failed
  | timedOut
  | stopped
  deriving DecidableEq

/-- Null for an error. A read brings a byte at least, and no more than it is asked for;
on a connection whose peer has sent all it had to say there is an error instead. -/
def pull (len : Nat) (bytes : Bytes) : Cut → Option Bytes
  | .data more => if bytes = [] then none else some (bytes.take (min (more + 1) len))
  | .wantRead => some []
  | .failed | .timedOut | .stopped => none

/-- The data in the buffer, and what is still to come. -/
structure Received where
  data : Bytes
  bytes : Bytes
  cuts : List Cut
  deriving DecidableEq

/-- Reads until the buffer has a header in it, or is full; null for an error. -/
def readRequest (data bytes : Bytes) : List Cut → Option Received
  | [] =>
      if data.length < maxRequestSize ∧ getRequestLen data = 0 then none
      else some { data := data, bytes := bytes, cuts := [] }
  | cut :: cuts =>
      if data.length < maxRequestSize ∧ getRequestLen data = 0 then
        match pull (maxRequestSize - data.length) bytes cut with
        | none => none
        | some got => readRequest (data ++ got) (bytes.drop got.length) cuts
      else some { data := data, bytes := bytes, cuts := cut :: cuts }

/-- What the reads for a body have brought. -/
structure Fetched where
  got : Bytes
  bytes : Bytes
  cuts : List Cut
  mustClose : Bool
  stopFlag : Bool

/-- The loop of `mg_read` that reads what the buffer did not have. -/
def fetch (len : Nat) (bytes : Bytes) : List Cut → Fetched
  | [] => { got := [], bytes := bytes, cuts := [], mustClose := false, stopFlag := false }
  | cut :: cuts =>
      if len = 0 then
        { got := [], bytes := bytes, cuts := cut :: cuts, mustClose := false, stopFlag := false }
      else
        match pull len bytes cut with
        | none =>
            { got := [], bytes := bytes, cuts := cuts
              mustClose := cut = .timedOut, stopFlag := cut = .stopped }
        | some got =>
            let later := fetch (len - got.length) (bytes.drop got.length) cuts
            { later with got := got ++ later.got }

/-- Nothing of this body has been consumed before. -/
def mgRead (r : Received) (requestLen contentLen len : Nat) : Fetched :=
  if 0 < contentLen then
    let len := min contentLen len
    let buffered := (r.data.drop requestLen).take len
    let later := fetch (len - buffered.length) r.bytes r.cuts
    { later with got := buffered ++ later.got }
  else { got := [], bytes := r.bytes, cuts := r.cuts, mustClose := false, stopFlag := false }

end Reading

section Requests

/-- What `est_http_request` is given. -/
structure Frame where
  info : RequestInfo
  body : Bytes
  deriving DecidableEq

/-- What a round meets on the side of the server: the memory of the buffer behind its
data, the memory that a body is allocated in, the status that the handler leaves, and
whether somebody stops the server meanwhile. -/
structure Round where
  stale : Bytes
  heap : Nat → UInt8
  statusCode : Int
  stop : Bool

def strtoll (text : Bytes) : Int := strtol (text.dropWhile isspace)

def isMethod (method : Bytes) (name : String) : Bool :=
  method.map tolower = (ascii name).map tolower

/-- The length of the body; negative where it had to be given and is not. -/
def contentLength (info : RequestInfo) : Int :=
  match getHeader info.httpHeaders "Content-Length" with
  | some value => strtoll value
  | none => if isMethod info.requestMethod "POST" ∨ isMethod info.requestMethod "PUT" then -1 else 0

/-- What the client asks for: in the header where it names the matter, else by the
version of the protocol. -/
def wantsKeepAlive (info : RequestInfo) : Bool :=
  match getHeader info.httpHeaders "Connection" with
  | some value => value.map tolower = ascii "keep-alive"
  | none => info.httpVersion.take 3 = ascii "1.1"

/-- Every connection of the library has keep-alive enabled. -/
def shouldKeepAlive (info : RequestInfo) (mustClose : Bool) (statusCode : Int) : Bool :=
  ¬ mustClose && statusCode ≠ 202 && statusCode < 400 && wantsKeepAlive info

/-- The body that `est_mg_handler` allocates; the result of the read is not looked at. -/
def bodyBuffer (round : Round) (len : Nat) (got : Bytes) : Bytes :=
  got ++ (List.range (len - got.length)).map fun i => round.heap (got.length + i)

/-- What has been done about one request. -/
structure Served where
  frame : Option Frame
  contentLen : Int
  statusCode : Int
  mustClose : Bool
  stopFlag : Bool
  bytes : Bytes
  cuts : List Cut

/-- The body is read and handed on with the request. -/
def estMgHandler (round : Round) (r : Received) (requestLen : Nat) (contentLen : Int)
    (info : RequestInfo) : Served :=
  match getHeader info.httpHeaders "Content-Length" with
  | some value =>
      let cl := (atoi value).toNat
      let read := mgRead r requestLen contentLen.toNat cl
      { frame := some { info := info, body := bodyBuffer round cl read.got }
        contentLen := contentLen, statusCode := round.statusCode, mustClose := read.mustClose
        stopFlag := read.stopFlag ∨ round.stop, bytes := read.bytes, cuts := read.cuts }
  | none =>
      { frame := some { info := info, body := [] }
        contentLen := contentLen, statusCode := round.statusCode, mustClose := false
        stopFlag := round.stop, bytes := r.bytes, cuts := r.cuts }

def sendHttpError (round : Round) (r : Received) (contentLen status : Int) : Served :=
  { frame := none, contentLen := contentLen, statusCode := status, mustClose := false
    stopFlag := round.stop, bytes := r.bytes, cuts := r.cuts }

/-- A request that could be parsed. Where its version is strange, the length of the
body is the one of the request before. -/
def serve (round : Round) (r : Received) (requestLen : Nat) (lastContentLen : Int)
    (info : RequestInfo) : Served :=
  if info.httpVersion.take 3 ≠ ascii "1.0" ∧ info.httpVersion.take 3 ≠ ascii "1.1" then
    sendHttpError round r lastContentLen 505
  else
    let contentLen := contentLength info
    if estMaxContentLen < contentLen then sendHttpError round r contentLen 413
    else if contentLen < 0 then sendHttpError round r contentLen 400
    else estMgHandler round r requestLen contentLen info

/-- A connection between two requests. -/
structure ConnState where
  data : Bytes
  bytes : Bytes
  cuts : List Cut
  contentLen : Int
  round : Nat
  frames : List Frame
  deriving DecidableEq

/-- The data behind the request. -/
def discard (data : Bytes) (requestLen : Nat) (contentLen : Int) : Bytes :=
  if 0 ≤ contentLen ∧ requestLen + contentLen < data.length then
    data.drop (requestLen + contentLen.toNat)
  else []

variable (server : Nat → Round)

/-- One round of `process_new_connection`. A line that is not HTTP sets `must_close`. -/
def turn (s : ConnState) : Turn ConnState (List Frame) :=
  match readRequest s.data s.bytes s.cuts with
  | none => .stop s.frames
  | some r =>
      if getRequestLen r.data ≤ 0 then .stop s.frames
      else
        match parseHttpRequest (r.data ++ (server s.round).stale) with
        | none => .stop s.frames
        | some info =>
            if ¬ isValidUri info.uri then .stop s.frames
            else
              let requestLen := (getRequestLen r.data).toNat
              let served := serve (server s.round) r requestLen s.contentLen info
              let frames := s.frames ++ served.frame.toList
              if ¬ served.stopFlag ∧ 0 ≤ served.contentLen ∧
                  shouldKeepAlive info served.mustClose served.statusCode then
                .more { data := discard r.data requestLen served.contentLen, bytes := served.bytes
                        cuts := served.cuts, contentLen := served.contentLen
                        round := s.round + 1, frames := frames }
              else .stop frames

def accepted (stream : Bytes) (cuts : List Cut) : ConnState :=
  { data := [], bytes := stream, cuts := cuts, contentLen := 0, round := 0, frames := [] }

/-- The part of the stream that no request has been cut off yet. -/
def ConnState.rest (s : ConnState) : Bytes := s.data ++ s.bytes

end Requests

section Reads

theorem pull_split {len : Nat} {bytes got : Bytes} {cut : Cut} (h : pull len bytes cut = some got) :
    got ++ bytes.drop got.length = bytes ∧ got.length ≤ len := by
  cases cut with
  | data more =>
    rw [pull] at h
    split at h
    · cases h
    · cases h
      constructor
      · exact List.prefix_iff_eq_append.mp (List.take_prefix _ bytes)
      · rw [List.length_take]
        omega
  | wantRead =>
    cases h
    exact ⟨rfl, Nat.zero_le _⟩
  | failed => cases h
  | timedOut => cases h
  | stopped => cases h

/-- Reading a header moves bytes into the buffer and loses none. -/
theorem readRequest_rest {data bytes : Bytes} {cuts : List Cut} {r : Received}
    (h : readRequest data bytes cuts = some r) : r.data ++ r.bytes = data ++ bytes := by
  induction cuts generalizing data bytes with
  | nil =>
    rw [readRequest] at h
    split at h
    · cases h
    · cases h
      rfl
  | cons cut cuts ih =>
    rw [readRequest] at h
    split at h
    · split at h
      · cases h
      · rename_i got hgot
        rw [ih h, List.append_assoc, (pull_split hgot).1]
    · cases h
      rfl

/-- So many bytes are read before a read fails. -/
def arrives (need : Nat) (bytes : Bytes) : List Cut → Bool
  | [] => need = 0
  | cut :: cuts =>
      need = 0 ||
        match pull need bytes cut with
        | none => false
        | some got => arrives (need - got.length) (bytes.drop got.length) cuts

theorem fetch_split (len : Nat) (bytes : Bytes) (cuts : List Cut) :
    (fetch len bytes cuts).got ++ (fetch len bytes cuts).bytes = bytes := by
  induction cuts generalizing len bytes with
  | nil => rfl
  | cons cut cuts ih =>
    rw [fetch]
    split
    · rfl
    · split
      · rfl
      · rename_i got hgot
        rw [List.append_assoc, ih, (pull_split hgot).1]

theorem fetch_length {len : Nat} {bytes : Bytes} {cuts : List Cut} (h : arrives len bytes cuts) :
    (fetch len bytes cuts).got.length = len := by
  induction cuts generalizing len bytes with
  | nil =>
    rw [arrives, decide_eq_true_eq] at h
    rw [h]
    rfl
  | cons cut cuts ih =>
    rw [arrives, Bool.or_eq_true, decide_eq_true_eq] at h
    rw [fetch]
    split
    · rename_i hzero
      rw [hzero]
      rfl
    · rename_i hpos
      have hlater := h.resolve_left hpos
      split
      · rename_i hnone
        rw [hnone] at hlater
        cases hlater
      · rename_i got hgot
        rw [hgot] at hlater
        have hle := (pull_split hgot).2
        rw [List.length_append, ih hlater]
        omega

end Reads

section Stream

/-- What the header says about the length of the body, whatever the number of its
fields. -/
def declaredLength (header : Bytes) : Nat :=
  let fields := (parseHttpMessage (maxHttpHeaders + header.length) header).httpHeaders
  (((getHeader fields "Content-Length").map strtoll).getD 0).toNat

/-- The first request of a stream with its whole body, and the stream behind it. -/
def nextFrame (stream : Bytes) : Option (Frame × Bytes) :=
  let len := (getRequestLen stream).toNat
  let declared := declaredLength (stream.take len)
  let body := (stream.drop len).take declared
  match parseHttpRequest stream with
  | none => none
  | some info =>
      if body.length = declared then some (⟨info, body⟩, stream.drop (len + declared)) else none

def framesUpTo : Nat → Bytes → List Frame
  | 0, _ => []
  | fuel + 1, stream =>
      match nextFrame stream with
      | none => []
      | some (frame, rest) => frame :: framesUpTo fuel rest

/-- The requests that a stream consists of, each with its whole body. -/
def framesOf (stream : Bytes) : List Frame := framesUpTo stream.length stream

theorem parseHttpRequest_pos {memory : Bytes} {info : RequestInfo}
    (h : parseHttpRequest memory = some info) : 0 < getRequestLen memory := by
  rw [parseHttpRequest] at h
  split at h
  · rename_i hgood
    exact hgood.1
  · cases h

theorem nextFrame_length {stream rest : Bytes} {frame : Frame}
    (h : nextFrame stream = some (frame, rest)) : rest.length < stream.length := by
  rw [nextFrame] at h
  split at h
  · cases h
  · rename_i info hinfo
    split at h
    · cases h
      have hpos := parseHttpRequest_pos hinfo
      have hle := getRequestLen_le stream
      rw [List.length_drop]
      omega
    · cases h

theorem framesUpTo_eq {m n : Nat} {stream : Bytes} (hm : stream.length ≤ m)
    (hn : stream.length ≤ n) : framesUpTo m stream = framesUpTo n stream := by
  induction m generalizing n stream with
  | zero =>
    have hnil : stream = [] := List.eq_nil_of_length_eq_zero (Nat.le_zero.mp hm)
    rw [hnil]
    cases n with
    | zero => rfl
    | succ n => rfl
  | succ m ih =>
    cases n with
    | zero =>
      have hnil : stream = [] := List.eq_nil_of_length_eq_zero (Nat.le_zero.mp hn)
      rw [hnil]
      rfl
    | succ n =>
      rw [framesUpTo, framesUpTo]
      split
      · rfl
      · rename_i frame rest hnext
        have hless := nextFrame_length hnext
        have hrest : framesUpTo m rest = framesUpTo n rest := ih (by omega) (by omega)
        rw [hrest]

theorem framesOf_cons {stream rest : Bytes} {frame : Frame}
    (h : nextFrame stream = some (frame, rest)) :
    framesOf stream = frame :: framesOf rest := by
  have hless := nextFrame_length h
  have hrest : framesUpTo stream.length rest = framesOf rest :=
    framesUpTo_eq (Nat.le_of_lt hless) (Nat.le_refl _)
  rw [framesOf, framesUpTo_eq (Nat.le_refl _) (Nat.le_succ _), framesUpTo, h]
  exact congrArg (List.cons frame) hrest

end Stream

section OneRequest

theorem parseHttpRequest_append {data : Bytes} (h : 0 < getRequestLen data) (more : Bytes) :
    parseHttpRequest (data ++ more) = parseHttpRequest data := by
  have hle := getRequestLen_le data
  rw [parseHttpRequest, parseHttpRequest, getRequestLen_append h,
    List.take_append_of_le_length (by omega)]

theorem parseFields_prefix (limit more : Nat) (text : Bytes) :
    parseFields limit text <+: parseFields (limit + more) text := by
  induction limit generalizing text with
  | zero => exact List.nil_prefix
  | succ limit ih =>
    rw [Nat.succ_add, parseFields, parseFields]
    by_cases hname : (parseHeader text).1.name = []
    · simp only [if_pos hname, List.prefix_refl]
    · simp only [if_neg hname, List.prefix_cons_inj]
      exact ih _

/-- A field that is found among the first ones is the first of its name. -/
theorem getHeader_of_prefix {front headers : List HttpHeader} {name : String} {value : Bytes}
    (h : front <+: headers) (hfound : getHeader front name = some value) :
    getHeader headers name = some value := by
  obtain ⟨back, rfl⟩ := h
  rw [getHeader, Option.map_eq_some_iff] at hfound ⊢
  obtain ⟨hdr, hhdr, hvalue⟩ := hfound
  exact ⟨hdr, by rw [List.find?_append, hhdr, Option.some_or], hvalue⟩

/-- The fields of the header that the server looks at. -/
def fieldsSeen (header : Bytes) : List HttpHeader :=
  (parseHttpMessage maxHttpHeaders header).httpHeaders

/-- No field that asks for a body hides behind those that the server looks at. -/
def LengthSeen (header : Bytes) : Prop :=
  getHeader (fieldsSeen header) "Content-Length" = none → declaredLength header = 0

theorem fieldsSeen_initial (header : Bytes) (more : Nat) :
    fieldsSeen header <+: (parseHttpMessage (maxHttpHeaders + more) header).httpHeaders :=
  parseFields_prefix maxHttpHeaders more _

theorem declaredLength_of_seen {header value : Bytes}
    (h : getHeader (fieldsSeen header) "Content-Length" = some value) :
    declaredLength header = (strtoll value).toNat := by
  have hall := getHeader_of_prefix (fieldsSeen_initial header header.length) h
  simp only [declaredLength, hall, Option.map_some, Option.getD_some]

theorem parseHttpRequest_headers {memory : Bytes} {info : RequestInfo}
    (h : parseHttpRequest memory = some info) :
    info.httpHeaders = fieldsSeen (memory.take (getRequestLen memory).toNat) := by
  rw [parseHttpRequest] at h
  split at h
  · cases h
    rfl
  · cases h

/-- The two versions of the protocol that the server speaks. -/
def knownVersion (version : Bytes) : Bool :=
  version.take 3 = ascii "1.0" ∨ version.take 3 = ascii "1.1"

/-- A request that is handed on is at the front of a connection. -/
structure Handles (server : Nat → Round) (s : ConnState) (r : Received) (info : RequestInfo) :
    Prop where
  read : readRequest s.data s.bytes s.cuts = some r
  complete : 0 < getRequestLen r.data
  parsed : parseHttpRequest (r.data ++ (server s.round).stale) = some info
  valid : isValidUri info.uri
  version : knownVersion info.httpVersion
  low : 0 ≤ contentLength info
  high : contentLength info ≤ estMaxContentLen

/-- The rest of the body, as far as the buffer does not have it, is read before a read
fails. -/
def BodyArrives (r : Received) : Prop :=
  let requestLen := (getRequestLen r.data).toNat
  arrives (declaredLength (r.data.take requestLen) - (r.data.length - requestLen)) r.bytes r.cuts

/-- Discarding a request leaves the stream behind its body, where the reads have brought
just what the buffer did not have of it. -/
theorem discard_append {data got left : Bytes} {requestLen n : Nat} (hlen : requestLen ≤ data.length)
    (hgot : got.length = n - (data.length - requestLen)) :
    discard data requestLen n ++ left = (data ++ (got ++ left)).drop (requestLen + n) := by
  rw [discard, Int.toNat_natCast]
  split
  · rename_i hmore
    have hnil : got = [] := by
      apply List.eq_nil_of_length_eq_zero
      omega
    rw [hnil, List.nil_append, List.drop_append_of_le_length (by omega)]
  · rename_i hall
    have hbeyond : requestLen + n = data.length + got.length := by omega
    rw [hbeyond, List.nil_append, ← List.append_assoc, ← List.length_append, List.drop_left]

/-- A body and the rest of the stream, put together from the buffer and the reads. -/
theorem mgRead_split {r : Received} {requestLen n : Nat} (hlen : requestLen ≤ r.data.length)
    (h : arrives (n - (r.data.length - requestLen)) r.bytes r.cuts) :
    (mgRead r requestLen n n).got = ((r.data ++ r.bytes).drop requestLen).take n ∧
      (mgRead r requestLen n n).got.length = n ∧
      discard r.data requestLen n ++ (mgRead r requestLen n n).bytes =
        (r.data ++ r.bytes).drop (requestLen + n) := by
  have hbuffered : ((r.data.drop requestLen).take n).length = min n (r.data.length - requestLen) := by
    rw [List.length_take, List.length_drop]
  have hneed : n - min n (r.data.length - requestLen) = n - (r.data.length - requestLen) := by omega
  have hfetched := fetch_length h
  have hwhole := fetch_split (n - (r.data.length - requestLen)) r.bytes r.cuts
  rw [mgRead]
  split
  · simp only [Nat.min_self, hbuffered, hneed]
    generalize fetch (n - (r.data.length - requestLen)) r.bytes r.cuts = later at hfetched hwhole
    refine ⟨?_, ?_, ?_⟩
    · rw [List.drop_append_of_le_length hlen, List.take_append, List.length_drop, ← hwhole,
        List.take_append_of_le_length (Nat.le_of_eq hfetched.symm),
        List.take_of_length_le (Nat.le_of_eq hfetched)]
    · rw [List.length_append, hbuffered, hfetched]
      omega
    · rw [discard_append hlen hfetched, hwhole]
  · rename_i hzero
    have hn : n = 0 := by omega
    subst hn
    have hnil : ([] : Bytes).length = 0 - (r.data.length - requestLen) := (Nat.zero_sub _).symm
    exact ⟨rfl, rfl, discard_append hlen hnil⟩

theorem atoi_eq_strtoll {value : Bytes} (hlow : 0 ≤ strtoll value)
    (hhigh : strtoll value ≤ estMaxContentLen) : atoi value = strtoll value := by
  unfold estMaxContentLen at hhigh
  unfold atoi toInt32
  rw [← strtoll]
  omega

/-- A body that is complete fills its buffer. -/
theorem bodyBuffer_full (round : Round) {len : Nat} {got : Bytes} (h : got.length = len) :
    bodyBuffer round len got = got := by
  rw [bodyBuffer, h, Nat.sub_self, List.range_zero, List.map_nil, List.append_nil]

/-- The header of the request, of the length that `read_request` has found. -/
def Received.header (r : Received) : Bytes := r.data.take (getRequestLen r.data).toNat

theorem Handles.rest {server : Nat → Round} {s : ConnState} {r : Received} {info : RequestInfo}
    (h : Handles server s r info) : s.rest = r.data ++ r.bytes :=
  (readRequest_rest h.read).symm

theorem Handles.parsed_data {server : Nat → Round} {s : ConnState} {r : Received}
    {info : RequestInfo} (h : Handles server s r info) : parseHttpRequest r.data = some info := by
  rw [← parseHttpRequest_append h.complete]
  exact h.parsed

/-- The length that the server goes by is the one that the header declares. -/
theorem Handles.contentLength_eq {server : Nat → Round} {s : ConnState} {r : Received}
    {info : RequestInfo} (h : Handles server s r info) (hseen : LengthSeen r.header) :
    contentLength info = declaredLength r.header := by
  have hfields : info.httpHeaders = fieldsSeen r.header := parseHttpRequest_headers h.parsed_data
  have hlow := h.low
  unfold contentLength at hlow ⊢
  rw [hfields] at hlow ⊢
  cases hfound : getHeader (fieldsSeen r.header) "Content-Length" with
  | some value =>
    rw [hfound] at hlow
    rw [declaredLength_of_seen hfound]
    exact (Int.toNat_of_nonneg hlow).symm
  | none =>
    rw [hfound] at hlow
    rw [hseen hfound]
    simp only at hlow ⊢
    split at hlow
    · exact absurd hlow (by decide)
    · rename_i hother
      rw [if_neg hother]
      rfl

/-- The first request of the stream is the one in the buffer. -/
theorem Handles.nextFrame_eq {server : Nat → Round} {s : ConnState} {r : Received}
    {info : RequestInfo} (h : Handles server s r info)
    (hbody : (((r.data ++ r.bytes).drop (getRequestLen r.data).toNat).take
      (declaredLength r.header)).length = declaredLength r.header) :
    nextFrame s.rest = some (⟨info, ((r.data ++ r.bytes).drop (getRequestLen r.data).toNat).take
        (declaredLength r.header)⟩,
      (r.data ++ r.bytes).drop ((getRequestLen r.data).toNat + declaredLength r.header)) := by
  have hle := getRequestLen_le r.data
  have hheader : (r.data ++ r.bytes).take (getRequestLen r.data).toNat = r.header :=
    List.take_append_of_le_length (by omega)
  rw [h.rest, nextFrame, getRequestLen_append h.complete, parseHttpRequest_append h.complete,
    h.parsed_data, hheader]
  simp only [hbody, if_true]

/-- A request whose body arrives is handed on as the stream has it, and what is left is
the stream behind it. -/
theorem estMgHandler_frame {server : Nat → Round} {s : ConnState} {r : Received}
    {info : RequestInfo} (h : Handles server s r info) (harrives : BodyArrives r)
    (hseen : LengthSeen r.header) {served : Served}
    (hserved : estMgHandler (server s.round) r (getRequestLen r.data).toNat (contentLength info)
      info = served) :
    ∃ frame, served.frame = some frame ∧
      nextFrame s.rest = some (frame,
        discard r.data (getRequestLen r.data).toNat (contentLength info) ++ served.bytes) := by
  have hle := getRequestLen_le r.data
  have hsplit : _ ∧ _ ∧ _ := @mgRead_split r _ (declaredLength r.header) (by omega) harrives
  have hnext := h.nextFrame_eq (by rw [← hsplit.1, hsplit.2.1])
  have hfields : info.httpHeaders = fieldsSeen r.header := parseHttpRequest_headers h.parsed_data
  have hlength := h.contentLength_eq hseen
  subst hserved
  rw [estMgHandler, hfields]
  cases hfound : getHeader (fieldsSeen r.header) "Content-Length" with
  | some value =>
    have hvalue : contentLength info = strtoll value := by rw [contentLength, hfields, hfound]
    have hatoi : (atoi value).toNat = declaredLength r.header := by
      rw [atoi_eq_strtoll (hvalue ▸ h.low) (hvalue ▸ h.high), ← hvalue, hlength, Int.toNat_natCast]
    simp only [hatoi, hlength, Int.toNat_natCast]
    refine ⟨_, rfl, ?_⟩
    rw [hnext, bodyBuffer_full _ hsplit.2.1, hsplit.2.2, hsplit.1]
  | none =>
    refine ⟨_, rfl, ?_⟩
    have hdone := hsplit.2.2
    rw [hnext, hlength, ← hdone, hseen hfound]
    rfl

end OneRequest

section Rounds

variable {server : Nat → Round}

/-- What goes on with the connection after a request, and what does not. -/
inductive TurnCase (server : Nat → Round) (s : ConnState) : Turn ConnState (List Frame) → Prop
  | finished : TurnCase server s (.stop s.frames)
  | last {r : Received} {info : RequestInfo} {served : Served} (handles : Handles server s r info)
      (hserved : estMgHandler (server s.round) r (getRequestLen r.data).toNat (contentLength info)
        info = served) :
      TurnCase server s (.stop (s.frames ++ served.frame.toList))
  | more {r : Received} {info : RequestInfo} {served : Served} (handles : Handles server s r info)
      (hserved : estMgHandler (server s.round) r (getRequestLen r.data).toNat (contentLength info)
        info = served) :
      TurnCase server s (.more
        { data := discard r.data (getRequestLen r.data).toNat (contentLength info)
          bytes := served.bytes, cuts := served.cuts, contentLen := contentLength info
          round := s.round + 1, frames := s.frames ++ served.frame.toList })

/-- The answer to a request that is not handed on, and that of one that is. -/
theorem serve_cases (round : Round) (r : Received) (requestLen : Nat) (last : Int)
    (info : RequestInfo) :
    ((serve round r requestLen last info).frame = none ∧
      400 ≤ (serve round r requestLen last info).statusCode) ∨
    (knownVersion info.httpVersion ∧ 0 ≤ contentLength info ∧
      contentLength info ≤ estMaxContentLen ∧ serve round r requestLen last info =
        estMgHandler round r requestLen (contentLength info) info) := by
  have herror : ∀ contentLen status : Int, 400 ≤ status →
      (sendHttpError round r contentLen status).frame = none ∧
        400 ≤ (sendHttpError round r contentLen status).statusCode :=
    fun _ _ hstatus => ⟨rfl, hstatus⟩
  unfold serve
  split
  · exact Or.inl (herror _ _ (by decide))
  · rename_i hversion
    dsimp only
    split
    · exact Or.inl (herror _ _ (by decide))
    · rename_i hhigh
      split
      · exact Or.inl (herror _ _ (by decide))
      · rename_i hlow
        refine Or.inr ⟨?_, Int.not_lt.mp hlow, Int.not_lt.mp hhigh, rfl⟩
        rw [knownVersion, decide_eq_true_eq]
        by_contra hneither
        exact hversion (not_or.mp hneither)

theorem estMgHandler_contentLen (round : Round) (r : Received) (requestLen : Nat)
    (contentLen : Int) (info : RequestInfo) :
    (estMgHandler round r requestLen contentLen info).contentLen = contentLen := by
  unfold estMgHandler
  split
  · rfl
  · rfl

theorem turn_cases (s : ConnState) : TurnCase server s (turn server s) := by
  unfold turn
  split
  · exact .finished
  · rename_i r hread
    split
    · exact .finished
    · rename_i hcomplete
      split
      · exact .finished
      · rename_i info hparsed
        split
        · exact .finished
        · rename_i hvalid
          obtain ⟨hframe, hstatus⟩ | ⟨hversion, hlow, hhigh, hserve⟩ :=
            serve_cases (server s.round) r (getRequestLen r.data).toNat s.contentLen info
          · -- an error status closes the connection
            have hclose : shouldKeepAlive info
                (serve (server s.round) r (getRequestLen r.data).toNat s.contentLen info).mustClose
                (serve (server s.round) r (getRequestLen r.data).toNat s.contentLen info).statusCode =
                  false := by
              rw [shouldKeepAlive, decide_eq_false (Int.not_lt.mpr hstatus), Bool.and_false,
                Bool.false_and]
            simp only [hclose, hframe, Bool.false_eq_true, and_false, if_false, Option.toList_none,
              List.append_nil]
            exact .finished
          · have handles : Handles server s r info :=
              ⟨hread, Int.not_le.mp hcomplete, hparsed, not_not.mp hvalid, hversion, hlow, hhigh⟩
            simp only [hserve, estMgHandler_contentLen]
            split
            · exact .more handles rfl
            · exact .last handles rfl

theorem discard_length (data : Bytes) (requestLen : Nat) (contentLen : Int) :
    (discard data requestLen contentLen).length ≤ data.length - requestLen := by
  rw [discard]
  split
  · rw [List.length_drop]
    omega
  · exact Nat.zero_le _

theorem mgRead_bytes (r : Received) (requestLen contentLen len : Nat) :
    (mgRead r requestLen contentLen len).bytes.length ≤ r.bytes.length := by
  rw [mgRead]
  split
  · have hsplit := fun need => congrArg List.length (fetch_split need r.bytes r.cuts)
    simp only [List.length_append] at hsplit
    exact Nat.le_of_add_left_le (Nat.le_of_eq (hsplit _))
  · exact Nat.le_refl _

theorem estMgHandler_bytes (round : Round) (r : Received) (requestLen : Nat) (contentLen : Int)
    (info : RequestInfo) :
    (estMgHandler round r requestLen contentLen info).bytes.length ≤ r.bytes.length := by
  unfold estMgHandler
  split
  · exact mgRead_bytes _ _ _ _
  · exact Nat.le_refl _

/-- Every request takes its header off the stream. -/
theorem turn_shrinks (server : Nat → Round) :
    Shrinks (turn server) fun s => s.rest.length := by
  intro s next hnext
  have hcase := @turn_cases server s
  rw [hnext] at hcase
  cases hcase with
  | more handles hserved =>
    rename_i r info served
    have hbytes := estMgHandler_bytes (server s.round) r (getRequestLen r.data).toNat
      (contentLength info) info
    rw [hserved] at hbytes
    have hdiscard := discard_length r.data (getRequestLen r.data).toNat (contentLength info)
    have hpos := handles.complete
    have hle := getRequestLen_le r.data
    have hrest := congrArg List.length handles.rest
    simp only [ConnState.rest, List.length_append] at hrest ⊢
    omega

/-- All that is handed to `est_http_request` on a connection. -/
def processNewConnection (server : Nat → Round) (stream : Bytes) (cuts : List Cut) : List Frame :=
  loopTotal (turn server) (fun s => s.rest.length) (turn_shrinks server) (accepted stream cuts)

/-- A request that is about to be handed on has its length among the fields that the
server looks at, and its body arrives before a read fails. -/
def Sound (server : Nat → Round) (s : ConnState) : Prop :=
  ∀ r info, Handles server s r info → LengthSeen r.header ∧ BodyArrives r

/-- What has been handed on and what the rest of the stream holds are the requests of the
stream. -/
def Tracks (stream : Bytes) (s : ConnState) : Prop :=
  framesOf stream = s.frames ++ framesOf s.rest

theorem tracks_more {stream : Bytes} {s next : ConnState} (hsound : Sound server s)
    (h : Tracks stream s) (hnext : turn server s = .more next) : Tracks stream next := by
  have hcase := @turn_cases server s
  rw [hnext] at hcase
  cases hcase with
  | more handles hserved =>
    have hgood := hsound _ _ handles
    obtain ⟨frame, hframe, hfirst⟩ := estMgHandler_frame handles hgood.2 hgood.1 hserved
    rw [Tracks, h, framesOf_cons hfirst, hframe, Option.toList_some, List.append_assoc]
    rfl

theorem prefix_stop {stream : Bytes} {s : ConnState} {result : List Frame}
    (hsound : Sound server s) (h : Tracks stream s) (hstop : turn server s = .stop result) :
    result <+: framesOf stream := by
  have hcase := @turn_cases server s
  rw [hstop] at hcase
  rw [Tracks] at h
  cases hcase with
  | finished =>
    rw [h]
    exact List.prefix_append _ _
  | last handles hserved =>
    have hgood := hsound _ _ handles
    obtain ⟨frame, hframe, hfirst⟩ := estMgHandler_frame handles hgood.2 hgood.1 hserved
    rw [h, framesOf_cons hfirst, hframe, Option.toList_some]
    exact (List.prefix_append_right_inj _).mpr ⟨_, rfl⟩

/-- A state that a connection has come to, with an account of what has been handed on. -/
def Followed (server : Nat → Round) (stream : Bytes) (cuts : List Cut) (s : ConnState) : Prop :=
  Reaches (turn server) (accepted stream cuts) s ∧ Tracks stream s

/-- On a connection whose requests are sound, what is handed on are the requests of the
stream, one after another from its first byte on, each with its whole body. -/
theorem requests_framed (server : Nat → Round) (stream : Bytes) (cuts : List Cut)
    (hsound : ∀ s, Reaches (turn server) (accepted stream cuts) s → Sound server s) :
    processNewConnection server stream cuts <+: framesOf stream := by
  have hmore : ∀ s next, Followed server stream cuts s → turn server s = .more next →
      Followed server stream cuts next := by
    intro s next h hnext
    exact ⟨h.1.trans (.step hnext), tracks_more (hsound s h.1) h.2 hnext⟩
  have hstop : ∀ s result, Followed server stream cuts s → turn server s = .stop result →
      result <+: framesOf stream := by
    intro s result h hlast
    exact prefix_stop (hsound s h.1) h.2 hlast
  have hstart : Followed server stream cuts (accepted stream cuts) := ⟨.refl, rfl⟩
  exact loopTotal_rule (turn_shrinks server) hmore hstop hstart

/-- A server that answers every request, in memory that is all zeros. -/
def answering : Nat → Round := fun _ =>
  { stale := [], heap := fun _ => 0, statusCode := 200, stop := false }

def pipelined : Bytes := ascii "POST /a HTTP/1.1\nContent-Length:3\n\nabcGET /b HTTP/1.0\n\n"

def pipelinedReads : List Cut := [.data 36, .wantRead, .data 99, .data 99]

/-- The connection after the first request; its body came in two reads. -/
def betweenRequests : ConnState :=
  { data := [], bytes := ascii "GET /b HTTP/1.0\n\n", cuts := [.data 99], contentLen := 3, round := 1
    frames := [{ info := { requestMethod := ascii "POST", uri := ascii "/a", httpVersion := ascii "1.1"
                           httpHeaders := [⟨ascii "Content-Length", ascii "3"⟩] }
                 body := ascii "abc" }] }

theorem sound_of_read {s : ConnState} {r : Received} (h : readRequest s.data s.bytes s.cuts = some r)
    (hseen : LengthSeen r.header) (harrives : BodyArrives r) : Sound server s := by
  intro r' info handles
  have hread := handles.read
  rw [h] at hread
  cases hread
  exact ⟨hseen, harrives⟩

theorem requests_framed_pipelined :
    (∀ s, Reaches (turn answering) (accepted pipelined pipelinedReads) s → Sound answering s) ∧
      processNewConnection answering pipelined pipelinedReads <+: framesOf pipelined := by
  have hfirst : turn answering (accepted pipelined pipelinedReads) = .more betweenRequests := by
    decide +kernel
  have hsecond : turn answering betweenRequests = .stop (betweenRequests.frames ++
      [{ info := ⟨ascii "GET", ascii "/b", ascii "1.0", []⟩, body := [] }]) := by
    decide +kernel
  have hread : readRequest [] pipelined pipelinedReads =
      some ⟨pipelined.take 37, pipelined.drop 37, pipelinedReads.drop 1⟩ := by
    decide +kernel
  have hsound : ∀ s, Reaches (turn answering) (accepted pipelined pipelinedReads) s →
      Sound answering s := by
    intro s hs
    cases hs.head_cases with
    | inl hstart =>
      rw [hstart]
      exact sound_of_read hread (by unfold LengthSeen; decide +kernel)
        (by unfold BodyArrives; decide +kernel)
    | inr hlater =>
      obtain ⟨next, hnext, hs⟩ := hlater
      rw [hfirst] at hnext
      cases hnext
      cases hs.head_cases with
      | inl hbetween =>
        rw [hbetween]
        exact @sound_of_read _ _ ⟨betweenRequests.bytes, [], []⟩ (by decide +kernel)
          (by unfold LengthSeen; decide +kernel) (by unfold BodyArrives; decide +kernel)
      | inr hlater =>
        obtain ⟨next, hnext, -⟩ := hlater
        rw [hsecond] at hnext
        cases hnext
  exact ⟨hsound, requests_framed answering pipelined pipelinedReads hsound⟩

/-- The peer goes away in the middle of a body of four bytes. -/
def truncated : Bytes := ascii "POST /a HTTP/1.1\nContent-Length:4\n\nab"

theorem truncated_body_handled :
    ¬ processNewConnection answering truncated [.data 99, .failed] <+: framesOf truncated := by
  decide +kernel

end Rounds

end LibEst.Server.Framing
