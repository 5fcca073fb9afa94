import LibEst.Lib.Cells
import LibEst.Client.Enroll
import LibEst.Client.ReferenceEnv

/-! The buffer that an enroll request is put together in: the header, the line ends and
the body have bounds of their own, and share 5125 bytes. -/
namespace LibEst.Client.RequestBuffer

open LibEst.Basic LibEst.OpenSsl LibEst.Base64 LibEst.Lib.ByteString LibEst.Lib.Cells
open LibEst.SafeStr
open LibEst.Server.AuthHeader LibEst.Server.AuthDigest
open LibEst.Client.Context LibEst.Client.AuthHeader LibEst.Client.Request LibEst.Client.Enroll
open LibEst.Client.Reference LibEst.Client.ReferenceEnv

/-- A cell that nothing has been written to since `malloc` is null. -/
abbrev Cell := Option UInt8

/-- What a call comes to before it waits for the answer. -/
inductive Outcome where
  | refused (rc : EstError)
  | wrote (cells : List Cell)
  /-- An access outside the buffer. -/
  | outside
  deriving DecidableEq

section Functions

/-- `snprintf` at a place in the buffer. The room is a difference of integers, and one
that is negative is very large as a size. -/
def snprintfAt (data : List Cell) (pos : Nat) (text : Bytes) : Option (List Cell) :=
  let room := (((estHttpReqTotalLen : Int) - pos) % 2 ^ 64).toNat
  if room = 0 then some data
  else write data pos ((text.take (room - 1) ++ [0]).map some)

/-- The copy is bounded by the size of a body, and nobody looks whether it was made. -/
def copyBody (data : List Cell) (pos : Nat) (body : Bytes) : Option (List Cell) :=
  if estHttpReqDataMax < body.length then some data else write data pos (body.map some)

/-- The buffer once the header has been printed into it. -/
def headerCells (hdr : Bytes) : List Cell :=
  hdr.map some ++ some 0 :: List.replicate (estHttpReqTotalLen - hdr.length - 1) none

/-- What is given to `SSL_write`, null for an access outside the buffer. -/
def assemble (hdr body : Bytes) : Option (List Cell) := do
  let data ← snprintfAt (headerCells hdr) hdr.length crlf
  let data ← copyBody data (hdr.length + 2) body
  let data ← snprintfAt data (hdr.length + 2 + body.length) crlf
  read data 0 (hdr.length + 2 + body.length + 2)

/-- A call, with whether it has buffers for a generated key, and whether there is memory. -/
structure EnrollCall where
  op : EstOperation
  body : Bytes
  keyBuffers : Bool
  memory : Bool

/-- `est_client_send_enroll_request_internal` up to the write. -/
def sendEnrollRequest (env : ClientEnv) (x : Exchange) (ctx : ClientCtx) (call : EnrollCall) :
    Outcome :=
  if call.keyBuffers = false ∧ call.op = .serverKeygen then .refused .badMode
  else if ¬ call.memory then .refused .malloc
  else
    match enrollHeader env x ctx call.op call.body.length with
    | none => .outside
    | some hdr =>
        if hdr.length = 0 then .refused .httpCannotBuildHeader
        else
          match assemble hdr call.body with
          | none => .outside
          | some cells => .wrote cells

end Functions

section Assembly

variable {hdr body : Bytes}

theorem headerCells_length (h : hdr.length < estHttpReqTotalLen) :
    (headerCells hdr).length = estHttpReqTotalLen := by
  rw [headerCells, List.length_append, List.length_map, List.length_cons, List.length_replicate]
  omega

theorem room_eq {pos : Nat} (h : pos ≤ estHttpReqTotalLen) :
    (((estHttpReqTotalLen : Int) - pos) % 2 ^ 64).toNat = estHttpReqTotalLen - pos := by
  have htotal : estHttpReqTotalLen = 5125 := rfl
  rw [htotal] at h ⊢
  omega

/-- A text goes behind what has been written, as far as there is room. -/
theorem snprintfAt_front {front text : Bytes} {rest : List Cell}
    (hlength : front.length + rest.length = estHttpReqTotalLen)
    (hroom : front.length < estHttpReqTotalLen) :
    ∃ rest', snprintfAt (front.map some ++ rest) front.length text =
        some ((front ++ text.take (rest.length - 1) ++ [0]).map some ++ rest') ∧
      front.length + min (rest.length - 1) text.length + 1 + rest'.length =
        estHttpReqTotalLen := by
  have hsize : estHttpReqTotalLen - front.length = rest.length := by omega
  have hdata : ((text.take (rest.length - 1) ++ [0]).map some).length ≤ rest.length := by
    rw [List.length_map, List.length_append, List.length_take, List.length_singleton]
    omega
  refine ⟨rest.drop ((text.take (rest.length - 1) ++ [0]).map some).length, ?_, ?_⟩
  · rw [snprintfAt, room_eq (Nat.le_of_lt hroom), hsize, if_neg (by omega),
      write_front (List.length_map _) hdata, ← List.map_append, List.append_assoc]
  · rw [List.length_drop, List.length_map, List.length_append, List.length_take,
      List.length_singleton]
    omega

/-- Where the whole request fits with its last zero, or without, it is what is sent. -/
theorem assemble_fits (hbody : body.length ≤ estHttpReqDataMax)
    (hfits : hdr.length + 2 + body.length + 2 ≤ estHttpReqTotalLen) :
    assemble hdr body = some ((hdr ++ crlf ++ body ++
      if hdr.length + 2 + body.length + 2 < estHttpReqTotalLen then crlf else [13, 0]).map
        some) := by
  have hcrlf : crlf.length = 2 := rfl
  have hstart : (some (0 : UInt8) ::
      List.replicate (estHttpReqTotalLen - hdr.length - 1) (none : Cell)).length =
        estHttpReqTotalLen - hdr.length := by
    rw [List.length_cons, List.length_replicate]
    omega
  obtain ⟨rest, hfirst, hrest⟩ := @snprintfAt_front hdr crlf _
    (by rw [hstart]; omega) (by omega)
  rw [hstart, List.take_of_length_le (by omega)] at hfirst
  rw [hstart, hcrlf] at hrest
  have hcopy : copyBody ((hdr ++ crlf ++ [0]).map some ++ rest) (hdr.length + 2) body =
      some ((hdr ++ crlf ++ body).map some ++ (some 0 :: rest).drop body.length) := by
    have hsplit : (hdr ++ crlf ++ [0]).map some ++ rest =
        (hdr ++ crlf).map some ++ (some 0 :: rest) := by
      simp
    rw [copyBody, if_neg (Nat.not_lt.mpr hbody), hsplit, write_front, ← List.map_append,
      List.length_map]
    · rw [List.length_map, List.length_append, hcrlf]
    · rw [List.length_map, List.length_cons]
      omega
  have hfront : (hdr ++ crlf ++ body).length = hdr.length + 2 + body.length := by
    rw [List.length_append, List.length_append, hcrlf]
  have hleft : ((some 0 :: rest).drop body.length).length =
      estHttpReqTotalLen - (hdr.length + 2 + body.length) := by
    rw [List.length_drop, List.length_cons]
    omega
  obtain ⟨last, hsecond, -⟩ := @snprintfAt_front (hdr ++ crlf ++ body) crlf
    ((some 0 :: rest).drop body.length) (by rw [hfront, hleft]; omega) (by omega)
  rw [hfront, hleft] at hsecond
  have hassemble : assemble hdr body = read ((hdr ++ crlf ++ body ++ crlf.take
      (estHttpReqTotalLen - (hdr.length + 2 + body.length) - 1) ++ [0]).map some ++ last) 0
        (hdr.length + 2 + body.length + 2) := by
    rw [assemble, headerCells, hfirst]
    simp only [Option.bind_eq_bind, Option.bind_some, hcopy, hsecond]
  rw [hassemble]
  by_cases hlt : hdr.length + 2 + body.length + 2 < estHttpReqTotalLen
  · rw [if_pos hlt, List.take_of_length_le (by omega)]
    have hread := @read_append _ [] ((hdr ++ crlf ++ body ++ crlf).map some)
      ([some 0] ++ last) 0 (hdr.length + 2 + body.length + 2) rfl
      (by rw [List.length_map, List.length_append, hfront, hcrlf])
    simpa using hread
  · have hroom : estHttpReqTotalLen - (hdr.length + 2 + body.length) - 1 = 1 := by omega
    have hone : crlf.take 1 = [13] := rfl
    rw [if_neg hlt, hroom, hone]
    have hread := @read_append _ [] ((hdr ++ crlf ++ body ++ [13, 0]).map some) last 0
      (hdr.length + 2 + body.length + 2) rfl
      (by rw [List.length_map, List.length_append, hfront]; rfl)
    simpa using hread

theorem snprintfAt_frame {data data' : List Cell} {pos : Nat} {text : Bytes}
    (h : snprintfAt data pos text = some data') :
    data'.length = data.length ∧
      ∀ i, i < pos ∨ pos + text.length + 1 ≤ i → data'[i]? = data[i]? := by
  rw [snprintfAt] at h
  generalize (((estHttpReqTotalLen : Int) - pos) % 2 ^ 64).toNat = room at h
  split at h
  · cases h
    exact ⟨rfl, fun _ _ => rfl⟩
  · refine ⟨write_length h, fun i hi => write_frame h ?_⟩
    rw [List.length_map, List.length_append, List.length_take, List.length_singleton]
    omega

theorem copyBody_length {data data' : List Cell} {pos : Nat}
    (h : copyBody data pos body = some data') : data'.length = data.length := by
  unfold copyBody at h
  split at h
  · cases h
    rfl
  · exact write_length h

/-- Nothing is sent from outside the buffer, and a body that is too long leaves cells that
nothing was written to. -/
theorem assemble_some {cells : List Cell} (hhdr : hdr.length < estHttpReqTotalLen)
    (h : assemble hdr body = some cells) :
    cells.length = hdr.length + 2 + body.length + 2 ∧
      hdr.length + 2 + body.length + 2 ≤ estHttpReqTotalLen ∧
      (estHttpReqDataMax < body.length → none ∈ cells) := by
  have hcrlf : crlf.length = 2 := rfl
  have hheader := headerCells_length hhdr
  unfold assemble at h
  simp only [Option.bind_eq_bind, Option.bind_eq_some_iff] at h
  obtain ⟨data, hfirst, data', hcopy, data'', hsecond, hread⟩ := h
  obtain ⟨hlength, hframe⟩ := snprintfAt_frame hfirst
  obtain ⟨hlength'', hframe''⟩ := snprintfAt_frame hsecond
  have hlength' := copyBody_length hcopy
  obtain ⟨hroom, hcells⟩ := read_eq hread
  rw [List.drop_zero] at hcells
  refine ⟨?_, by omega, ?_⟩
  · rw [hcells, List.length_take]
    omega
  · intro hlong
    rw [copyBody, if_pos hlong] at hcopy
    cases hcopy
    have hmax : estHttpReqDataMax = 4096 := rfl
    have hunwritten : (headerCells hdr)[hdr.length + 3]? = some none := by
      rw [headerCells, List.getElem?_append_right (by rw [List.length_map]; omega),
        List.length_map, Nat.add_sub_cancel_left, List.getElem?_cons_succ,
        List.getElem?_replicate_of_lt (by omega)]
    have hcell : cells[hdr.length + 3]? = some none := by
      rw [hcells, List.getElem?_take_of_lt (by omega), hframe'' _ (by omega),
        hframe _ (by omega), hunwritten]
    exact List.mem_of_getElem? hcell

/-- The request is sent as it should be just where the body is not too long and the
buffer has room for everything with a zero behind it. -/
theorem assemble_iff (hhdr : hdr.length < estHttpReqTotalLen) :
    assemble hdr body = some ((hdr ++ crlf ++ body ++ crlf).map some) ↔
      body.length ≤ estHttpReqDataMax ∧
        hdr.length + 2 + body.length + 2 < estHttpReqTotalLen := by
  constructor
  · intro h
    obtain ⟨-, hroom, hlong⟩ := assemble_some hhdr h
    have hbody : body.length ≤ estHttpReqDataMax := by
      by_contra hgt
      have hnone := hlong (Nat.lt_of_not_le hgt)
      simp at hnone
    refine ⟨hbody, ?_⟩
    by_contra hge
    rw [assemble_fits hbody hroom, if_neg hge] at h
    have hsame : (hdr ++ crlf ++ body).map some ++ [13, 0].map some =
        (hdr ++ crlf ++ body).map some ++ crlf.map some := by
      rw [← List.map_append, ← List.map_append]
      exact Option.some.inj h
    exact absurd (List.append_cancel_left hsame) (by decide)
  · intro h
    obtain ⟨hbody, hroom⟩ := h
    rw [assemble_fits hbody (Nat.le_of_lt hroom), if_pos hroom]

/-- A request that the text of the client's other parts is made of is what the buffer holds. -/
theorem assemble_of_buildRequest {request : Bytes} (h : buildRequest hdr body = some request) :
    assemble hdr body = some (request.map some) := by
  unfold buildRequest at h
  simp only [Option.bind_eq_bind, Option.bind_eq_some_iff] at h
  obtain ⟨text, htext, hrest⟩ := h
  split_ifs at hrest with hlong
  have hcrlf : crlf.length = 2 := rfl
  have hlength : text.length = hdr.length + 2 := by
    unfold addLineEnd at htext
    split_ifs at htext <;> cases htext <;> rw [List.length_append] <;> rfl
  have hwhole : text = hdr ++ crlf ∨ estHttpReqTotalLen = hdr.length + 2 := by
    unfold addLineEnd at htext
    split_ifs at htext with hlt heq
    · cases htext
      exact Or.inl rfl
    · exact Or.inr heq.symm
  unfold addLineEnd at hrest
  rw [List.length_append, hlength] at hrest
  have htextEq : text = hdr ++ crlf := by
    cases hwhole with
    | inl h => exact h
    | inr h =>
      split_ifs at hrest <;> omega
  subst htextEq
  have hfits : hdr.length + 2 + body.length + 2 ≤ estHttpReqTotalLen := by
    split_ifs at hrest <;> omega
  rw [assemble_fits (Nat.le_of_not_lt hlong) hfits]
  split_ifs at hrest with hlt heq
  · cases hrest
    rw [if_pos hlt]
  · cases hrest
    rw [if_neg hlt]

end Assembly

section Headers

variable (env : ClientEnv) (auth : AuthEnv) (ctx : ClientCtx) (op : EstOperation)

/-- The request line and the headers that do not depend on the mode. -/
def headerLines (length : Nat) : Bytes :=
  requestLines env ctx (ascii "POST") (enrollResource op) ++
    ascii "Content-Type: application/pkcs10" ++ crlf ++
    ascii "Content-Length: " ++ decimal length ++ crlf

def authText : AuthLine → Bytes
  | .value text => ascii "Authorization: " ++ text ++ crlf
  | .absent | .wiped | .undefined => []

/-- The request line and all headers, at whatever length. -/
def wholeHeader (length : Nat) : Bytes :=
  headerLines env ctx op length ++ authText (authLine auth ctx (resourceUri (enrollResource op)))

/-- What stands on the stack behind the copy of the user name, where the copy has no zero
of its own. -/
def spill (stack : Bytes) : Bytes :=
  if ctx.authMode = .digest ∧ hasCredentials ctx ∧ maxUidpwd ≤ ctx.userid.length then cString stack
  else []

variable {env auth ctx op}

theorem basicValue_isSome (ctx : ClientCtx) : (basicValue ctx).isSome := by
  unfold basicValue
  dsimp only
  rw [Option.isSome_map, estBase64Encode]
  generalize hboth : snprintf (maxUidpwd * 2 + 2) _ = both
  have hlength : both.length ≤ 511 := by
    rw [← hboth, snprintf]
    exact List.length_take_le _ _
  have htext : (base64Text false both).length = (both.length + 2) / 3 * 4 :=
    groups_length _
  unfold maxUidpwd
  grind

theorem bearerValue_isSome (ctx : ClientCtx) : (bearerValue ctx).isSome := by
  unfold bearerValue
  dsimp only
  rw [Option.isSome_map, estBase64Encode]
  generalize htoken : (tokenText ctx).take maxAuthTokenLen = token
  have hlength : token.length ≤ 512 := by
    rw [← htoken]
    exact List.length_take_le _ _
  have htext : (base64Text false token).length = (token.length + 2) / 3 * 4 :=
    groups_length _
  unfold maxAuthTokenLen
  grind

theorem authLine_defined (uri : Bytes) : authLine auth ctx uri ≠ .undefined := by
  obtain ⟨basic, hbasic⟩ := Option.isSome_iff_exists.mp (basicValue_isSome ctx)
  obtain ⟨bearer, hbearer⟩ := Option.isSome_iff_exists.mp (bearerValue_isSome ctx)
  unfold authLine
  cases ctx.authMode with
  | none => simp
  | fail => simp
  | basic => simp [hbasic]
  | token => simp [hbearer]
  | digest => cases digestValue auth ctx uri <;> simp

/-- The header is wiped where the digest has no random bytes. -/
theorem authLine_wiped (uri : Bytes) :
    authLine auth ctx uri = .wiped ↔ ctx.authMode = .digest ∧ auth.random = none := by
  obtain ⟨basic, hbasic⟩ := Option.isSome_iff_exists.mp (basicValue_isSome ctx)
  obtain ⟨bearer, hbearer⟩ := Option.isSome_iff_exists.mp (bearerValue_isSome ctx)
  unfold authLine
  cases ctx.authMode with
  | none => simp
  | fail => simp
  | basic => simp [hbasic]
  | token => simp [hbearer]
  | digest =>
    unfold digestValue
    cases auth.random <;> simp

/-- The header that is built is all of it, cut at the end of the buffer. -/
theorem estClientAddAuthHdr_eq (text uri : Bytes) :
    estClientAddAuthHdr auth ctx (snprintf estHttpReqTotalLen text) uri =
      if authLine auth ctx uri = .wiped then some []
      else some (snprintf estHttpReqTotalLen (text ++ authText (authLine auth ctx uri))) := by
  have hdefined := @authLine_defined auth ctx uri
  unfold estClientAddAuthHdr
  cases hline : authLine auth ctx uri with
  | undefined => exact absurd hline hdefined
  | wiped => simp
  | absent => simp [authText]
  | value value =>
    have hroom : estHttpReqTotalLen - (text.take (estHttpReqTotalLen - 1)).length - 1 =
        estHttpReqTotalLen - 1 - text.length := by
      rw [List.length_take]
      omega
    simp only [snprintf, reduceCtorEq, if_false, authText, hroom, List.take_append]

/-- The user name that goes into a digest runs on into the stack. -/
theorem digestCredentials_spill (hmode : ctx.authMode = .digest) (stack : Bytes) :
    digestCredentials ctx stack =
        ((digestCredentials ctx []).1 ++ spill ctx stack, (digestCredentials ctx []).2) ∧
      (spill ctx stack ≠ [] → (digestCredentials ctx []).1.length = maxUidpwd) := by
  unfold digestCredentials spill
  by_cases hset : hasCredentials ctx = true
  · rw [if_pos hset, if_pos hset]
    by_cases hlong : maxUidpwd ≤ ctx.userid.length
    · rw [if_pos ⟨hmode, hset, hlong⟩]
      unfold strcpyS
      rw [if_neg (Nat.not_lt.mpr hlong), if_neg (Nat.not_lt.mpr hlong)]
      refine ⟨by simp [cString], fun _ => ?_⟩
      simp only [cString, List.takeWhile_nil, List.append_nil, List.length_take]
      omega
    · rw [if_neg fun h => hlong h.2.2]
      unfold strcpyS
      rw [if_pos (Nat.lt_of_not_le hlong), if_pos (Nat.lt_of_not_le hlong)]
      simp
  · rw [if_neg hset, if_neg hset, if_neg fun h => hset h.2.1]
    simp

/-- The line is longer by what it takes from the stack, and otherwise as it should be. -/
theorem authLine_spill (auth : AuthEnv) (uri : Bytes) :
    (authText (authLine auth ctx uri)).length =
        (authText (authLine { auth with stack := [] } ctx uri)).length +
          (if auth.random = none then 0 else (spill ctx auth.stack).length) ∧
      (spill ctx auth.stack = [] → authLine auth ctx uri =
        authLine { auth with stack := [] } ctx uri) := by
  unfold authLine
  cases hmode : ctx.authMode with
  | none => simp [spill, hmode]
  | fail => simp [spill, hmode]
  | basic => simp [spill, hmode]
  | token => simp [spill, hmode]
  | digest =>
    obtain ⟨hcredentials, hlong⟩ := digestCredentials_spill hmode auth.stack
    unfold digestValue
    cases hrandom : auth.random with
    | none => simp
    | some random =>
      have htake : ((digestCredentials ctx []).1 ++ spill ctx auth.stack).take maxUidpwd =
          (digestCredentials ctx []).1.take maxUidpwd := by
        by_cases hspill : spill ctx auth.stack = []
        · rw [hspill, List.append_nil]
        · exact List.take_append_of_le_length (Nat.le_of_eq (hlong hspill).symm)
      simp only [Option.map_some, Option.getD_some, hcredentials, estClientGenerateAuthDigest, htake]
      constructor
      · simp only [authText, digestText, List.length_append, if_neg (Option.some_ne_none random)]
        omega
      · intro hspill
        rw [hspill, List.append_nil]

end Headers

section Framing

variable (env : ClientEnv) (x : Exchange) (ctx : ClientCtx) (call : EnrollCall)

/-- The request line and headers, an empty line, the body and a line end. -/
def requestText : Bytes :=
  wholeHeader env { authEnv env x with stack := [] } ctx call.op call.body.length ++ crlf ++
    call.body ++ crlf

/-- The call has written that text, or has an error and has written nothing. -/
def Framed : Outcome → Prop
  | .refused rc => rc ≠ .none
  | .wrote cells => cells = (requestText env x ctx call).map some
  | .outside => False

def Enrolls (op : EstOperation) : Prop :=
  op = .simpleEnroll ∨ op = .simpleReenroll ∨ op = .serverKeygen

/-- The reasons for which a call does not come to the write. -/
inductive Refuses : Prop where
  | mode (h : call.keyBuffers = false ∧ call.op = .serverKeygen)
  | memory (h : call.memory = false)
  | operation (h : ¬ Enrolls call.op)
  | random (h : ctx.authMode = .digest ∧ x.random = none)
  | reenroll (h : call.op = .simpleReenroll ∧
      estHttpHdrMax < (wholeHeader env (authEnv env x) ctx call.op call.body.length).length)

variable {env x ctx call}

theorem enrollHeader_eq {op : EstOperation} (hop : Enrolls op) (length : Nat)
    (hrandom : ¬ (ctx.authMode = .digest ∧ x.random = none)) :
    enrollHeader env x ctx op length =
      some (if op = .simpleReenroll then
          limitHeader (snprintf estHttpReqTotalLen (wholeHeader env (authEnv env x) ctx op length))
        else snprintf estHttpReqTotalLen (wholeHeader env (authEnv env x) ctx op length)) := by
  have hbuilt (resource : Bytes) (h : resource = enrollResource op) :
      estClientAddAuthHdr (authEnv env x) ctx (postHeader env ctx resource length)
          (resourceUri resource) =
        some (snprintf estHttpReqTotalLen (wholeHeader env (authEnv env x) ctx op length)) := by
    subst h
    have hwiped := (@authLine_wiped (authEnv env x) ctx (resourceUri (enrollResource op))).not.mpr
      hrandom
    have hadd := @estClientAddAuthHdr_eq (authEnv env x) ctx (headerLines env ctx op length)
      (resourceUri (enrollResource op))
    rw [if_neg hwiped] at hadd
    exact hadd
  cases hop with
  | inl h =>
    subst h
    rw [if_neg (by decide)]
    exact hbuilt estSimpleEnroll rfl
  | inr h =>
    cases h with
    | inl h =>
      subst h
      rw [if_pos rfl]
      exact congrArg (Option.map limitHeader) (hbuilt estSimpleReenroll rfl)
    | inr h =>
      subst h
      rw [if_neg (by decide)]
      exact hbuilt estServerKeygen rfl

/-- The header that is built and the one that is meant differ by what the stack adds. -/
theorem wholeHeader_spill (op : EstOperation) (length : Nat)
    (hrandom : ¬ (ctx.authMode = .digest ∧ x.random = none)) :
    (wholeHeader env (authEnv env x) ctx op length).length =
        (wholeHeader env { authEnv env x with stack := [] } ctx op length).length +
          (spill ctx x.stack).length ∧
      (spill ctx x.stack = [] → wholeHeader env (authEnv env x) ctx op length =
        wholeHeader env { authEnv env x with stack := [] } ctx op length) := by
  have hstack : (authEnv env x).stack = x.stack := rfl
  obtain ⟨hlength, hsame⟩ :=
    @authLine_spill ctx (authEnv env x) (resourceUri (enrollResource op))
  rw [hstack] at hlength hsame
  unfold wholeHeader
  constructor
  · rw [List.length_append, List.length_append, hlength, Nat.add_assoc]
    by_cases hnone : (authEnv env x).random = none
    · have hspill : spill ctx x.stack = [] := if_neg fun h => hrandom ⟨h.1, hnone⟩
      rw [if_pos hnone, hspill, List.length_nil]
    · rw [if_neg hnone]
  · intro hspill
    rw [hsame hspill]

theorem wholeHeader_ne (auth : AuthEnv) (op : EstOperation) (length : Nat) :
    0 < (wholeHeader env auth ctx op length).length := by
  unfold wholeHeader headerLines
  simp only [List.length_append]
  have hline : (ascii "Content-Type: application/pkcs10").length = 32 := by decide
  omega

/-- A call that is not refused gives what it puts together to the write. -/
theorem sendEnrollRequest_assembles (h : ¬ Refuses env x ctx call) :
    sendEnrollRequest env x ctx call =
      match assemble (snprintf estHttpReqTotalLen
          (wholeHeader env (authEnv env x) ctx call.op call.body.length)) call.body with
      | none => .outside
      | some cells => .wrote cells := by
  have hmode : ¬ (call.keyBuffers = false ∧ call.op = .serverKeygen) := fun hm => h (.mode hm)
  have hmemory : call.memory = true := by
    by_contra hm
    exact h (.memory (Bool.eq_false_iff.mpr hm))
  have hop : Enrolls call.op := by
    by_contra hm
    exact h (.operation hm)
  have hheader := @enrollHeader_eq env x ctx call.op hop call.body.length fun hr => h (.random hr)
  have hpos := @wholeHeader_ne env ctx (authEnv env x) call.op call.body.length
  set whole := wholeHeader env (authEnv env x) ctx call.op call.body.length with hwhole
  have hne : (snprintf estHttpReqTotalLen whole).length ≠ 0 := by
    have htotal : estHttpReqTotalLen = 5125 := rfl
    rw [snprintf, List.length_take]
    omega
  have hlimit : (if call.op = .simpleReenroll then limitHeader (snprintf estHttpReqTotalLen whole)
      else snprintf estHttpReqTotalLen whole) = snprintf estHttpReqTotalLen whole := by
    by_cases hre : call.op = .simpleReenroll
    · have hshort : ¬ estHttpHdrMax < whole.length := fun hlong => h (.reenroll ⟨hre, hlong⟩)
      rw [if_pos hre, limitHeader, if_neg]
      rw [snprintf, List.length_take]
      omega
    · rw [if_neg hre]
  rw [hlimit] at hheader
  unfold sendEnrollRequest
  rw [if_neg hmode, if_neg (by simp [hmemory]), hheader]
  dsimp only
  rw [if_neg hne]

theorem refused_of_empty (h : enrollHeader env x ctx call.op call.body.length = some []) :
    ∃ rc, sendEnrollRequest env x ctx call = .refused rc ∧ rc ≠ .none := by
  unfold sendEnrollRequest
  rw [h]
  split_ifs
  · exact ⟨_, rfl, by simp⟩
  · exact ⟨_, rfl, by simp⟩
  · exact ⟨_, rfl, by simp⟩

theorem enrollHeader_wiped (hop : Enrolls call.op) (length : Nat)
    (hrandom : ctx.authMode = .digest ∧ x.random = none) :
    enrollHeader env x ctx call.op length = some [] := by
  have hbuilt (text uri : Bytes) :
      estClientAddAuthHdr (authEnv env x) ctx (snprintf estHttpReqTotalLen text) uri =
        some [] := by
    rw [estClientAddAuthHdr_eq, if_pos ((authLine_wiped uri).mpr hrandom)]
  cases hop with
  | inl h =>
    rw [h]
    exact hbuilt _ _
  | inr h =>
    cases h with
    | inl h =>
      rw [h]
      exact congrArg (Option.map limitHeader) (hbuilt _ _)
    | inr h =>
      rw [h]
      exact hbuilt _ _

/-- A refused call has an error, and nothing has been written. -/
theorem sendEnrollRequest_refused (h : Refuses env x ctx call) :
    ∃ rc, sendEnrollRequest env x ctx call = .refused rc ∧ rc ≠ .none := by
  by_cases hop : Enrolls call.op
  · by_cases hrandom : ctx.authMode = .digest ∧ x.random = none
    · exact refused_of_empty (enrollHeader_wiped hop _ hrandom)
    · cases h with
      | mode h =>
        unfold sendEnrollRequest
        rw [if_pos h]
        exact ⟨_, rfl, by simp⟩
      | memory h =>
        unfold sendEnrollRequest
        rw [h, if_pos (show ¬ false = true from Bool.false_ne_true)]
        split_ifs
        · exact ⟨_, rfl, by simp⟩
        · exact ⟨_, rfl, by simp⟩
      | operation h => exact absurd hop h
      | random h => exact absurd h hrandom
      | reenroll h =>
        apply refused_of_empty
        have hlong : estHttpHdrMax < (snprintf estHttpReqTotalLen
            (wholeHeader env (authEnv env x) ctx call.op call.body.length)).length := by
          have htotal : estHttpReqTotalLen = 5125 := rfl
          have hmax : estHttpHdrMax = 1024 := rfl
          rw [snprintf, List.length_take]
          omega
        rw [enrollHeader_eq hop _ hrandom, if_pos h.1, limitHeader, if_pos hlong]
  · apply refused_of_empty
    unfold enrollHeader
    unfold Enrolls at hop
    cases hcall : call.op <;> simp_all

theorem framed_iff (result : Option (List Cell)) :
    Framed env x ctx call (match result with
      | none => .outside
      | some cells => .wrote cells) ↔ result = some ((requestText env x ctx call).map some) := by
  cases result with
  | none => exact iff_of_false id (by simp)
  | some cells => exact (Option.some_inj).symm

/-- What is put together is the text that is meant just where all of it fits and nothing
comes from the stack. -/
theorem assemble_requestText_iff (hrandom : ¬ (ctx.authMode = .digest ∧ x.random = none)) :
    assemble (snprintf estHttpReqTotalLen
        (wholeHeader env (authEnv env x) ctx call.op call.body.length)) call.body =
          some ((requestText env x ctx call).map some) ↔
      call.body.length ≤ estHttpReqDataMax ∧
        (requestText env x ctx call).length < estHttpReqTotalLen ∧ spill ctx x.stack = [] := by
  obtain ⟨hlength, hsame⟩ := @wholeHeader_spill env x ctx call.op call.body.length hrandom
  set whole := wholeHeader env (authEnv env x) ctx call.op call.body.length with hwhole
  set meant := wholeHeader env { authEnv env x with stack := [] } ctx call.op
    call.body.length with hmeant
  have hcrlf : crlf.length = 2 := rfl
  have htotal : estHttpReqTotalLen = 5125 := rfl
  have htext : requestText env x ctx call = meant ++ crlf ++ call.body ++ crlf := rfl
  have htextLength : (requestText env x ctx call).length =
      meant.length + 2 + call.body.length + 2 := by
    rw [htext, List.length_append, List.length_append, List.length_append, hcrlf]
  have hcut : (snprintf estHttpReqTotalLen whole).length = min 5124 whole.length := by
    rw [snprintf, List.length_take]
    rfl
  have hfull (h : whole.length < estHttpReqTotalLen) : snprintf estHttpReqTotalLen whole = whole :=
    List.take_of_length_le (by omega)
  constructor
  · intro hassemble
    have hsome := assemble_some (by omega) hassemble
    have hcount := hsome.1
    have hroom := hsome.2.1
    rw [List.length_map, htextLength] at hcount
    -- The stack can add nothing: the header would be longer, and not even cut.
    have hspill : spill ctx x.stack = [] := List.length_eq_zero_iff.mp (by omega)
    rw [hfull (by omega), hsame hspill, htext] at hassemble
    have hfits := (assemble_iff (by omega)).mp hassemble
    exact ⟨hfits.1, by omega, hspill⟩
  · intro h
    have hspill := h.2.2
    have hshort : whole.length < estHttpReqTotalLen := by
      rw [hspill, List.length_nil] at hlength
      omega
    rw [hfull hshort, hsame hspill, htext]
    exact (assemble_iff (by omega)).mpr ⟨h.1, by omega⟩

/-- A request is framed as it should be just where it is refused, or has a body of at most
4096 bytes, fits the buffer with a zero behind it, and takes nothing from the stack. -/
theorem enroll_request_framed_iff (env : ClientEnv) (x : Exchange) (ctx : ClientCtx)
    (call : EnrollCall) :
    Framed env x ctx call (sendEnrollRequest env x ctx call) ↔
      Refuses env x ctx call ∨
        (call.body.length ≤ estHttpReqDataMax ∧
          (requestText env x ctx call).length < estHttpReqTotalLen ∧
          spill ctx x.stack = []) := by
  by_cases hrefuses : Refuses env x ctx call
  · obtain ⟨rc, hsend, hrc⟩ := sendEnrollRequest_refused hrefuses
    rw [hsend]
    exact iff_of_true hrc (Or.inl hrefuses)
  · rw [sendEnrollRequest_assembles hrefuses, framed_iff, or_iff_right hrefuses]
    exact assemble_requestText_iff fun h => hrefuses (.random h)

/-- A request that the proxy passes on, one byte longer than the room for a body. -/
def longCall : EnrollCall where
  op := .simpleEnroll
  body := List.replicate 4097 65
  keyBuffers := false
  memory := true

/-- The body is not copied, and the request is not the text that is meant. -/
theorem long_body_not_framed :
    ¬ Framed clientEnv noContentAnswer hostCtx longCall
      (sendEnrollRequest clientEnv noContentAnswer hostCtx longCall) := by
  have hlong : ¬ longCall.body.length ≤ estHttpReqDataMax := by
    rw [longCall, List.length_replicate]
    decide
  have hrandom : ¬ (hostCtx.authMode = .digest ∧ noContentAnswer.random = none) := by decide
  have hrefuses : ¬ Refuses clientEnv noContentAnswer hostCtx longCall := by
    intro h
    cases h with
    | mode h => exact absurd h.2 (by decide)
    | memory h => exact absurd h (by decide)
    | operation h => exact h (Or.inl rfl)
    | random h => exact hrandom h
    | reenroll h => exact absurd h.1 (by decide)
  rw [sendEnrollRequest_assembles hrefuses, framed_iff, assemble_requestText_iff hrandom]
  exact fun h => hlong h.1

end Framing

end LibEst.Client.RequestBuffer
