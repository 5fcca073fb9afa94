import LibEst.Coap.Server
import LibEst.Coap.ReferenceEnv

/-! Uploads in blocks against uploads in one message. On a fresh node, a Block1
transfer that loses nothing and keeps its order leaves the same bytes in the
request buffer as the one message would, and leads to the same answer. -/
namespace LibEst.Coap.Blockwise

open LibEst.Basic LibEst.Base64 LibEst.Lib.ByteString LibEst.Lib.Machine
open LibEst.Coap.ReqTable LibEst.Coap.TableMap LibEst.Coap.Handlers LibEst.Coap.HandlerCases
open LibEst.Coap.Server

/-- The node of a peer that has sent `front` so far, and was not answered. -/
def holding (key : Bytes) (reqType : EstCoapReq) (front : Bytes) : CoapReqNode :=
  { blank with key := key, reqBuf := front, reqBufLen := front.length, curReq := reqType }

@[simp] theorem upload_holding (key : Bytes) (reqType : EstCoapReq) (front : Bytes) :
    upload (holding key reqType front) = front := by
  unfold upload holding
  simpa using readFirst_prefix front []

theorem fresh_eq_holding (key : Bytes) (reqType : EstCoapReq) :
    fresh key reqType = holding key reqType [] := rfl

theorem touch_holding (key : Bytes) (reqType : EstCoapReq) (front : Bytes) :
    touch (holding key reqType front) reqType = holding key reqType front := by
  simp [touch, holding]

/-- Whatever a fresh node was last used for, it is handed out empty. -/
theorem touch_fresh (key : Bytes) (before reqType : EstCoapReq) (h : reqType ≠ .reset) :
    touch (fresh key before) reqType = holding key reqType [] := by
  unfold touch
  split
  · rfl
  · rename_i hsame
    have hbefore : before = reqType := by
      by_contra hne
      exact hsame ⟨hne, h⟩
    rw [hbefore, fresh_eq_holding]

theorem copyIn_holding {key : Bytes} {reqType : EstCoapReq} {front data : Bytes}
    (hfits : front.length + data.length ≤ coapReqNodeBufLenMax) :
    copyIn (holding key reqType front) front.length data =
      some (holding key reqType (front ++ data)) := by
  have hwrite : writeAt front front.length data = front ++ data := by
    unfold writeAt readFirst
    simp
  unfold copyIn
  rw [if_pos hfits]
  simp only [holding, hwrite, List.length_append]

section Receiving

variable {key : Bytes} {reqType : EstCoapReq} {front : Bytes} {pdu : Pdu} {block : Block}

/-- A block that starts where the bytes before it end. -/
theorem receive_holding (hblock : pdu.block1 = some block) (hoffset : block.offset = front.length)
    (hfits : front.length + pdu.payload.length ≤ coapReqNodeBufLenMax) :
    receive (holding key reqType front) pdu =
      some (justRespond (holding key reqType (front ++ pdu.payload)) block) := by
  have hlen : (holding key reqType front).reqBufLen = front.length := rfl
  unfold receive
  simp only [hblock]
  unfold receiveBlock
  by_cases hpayload : pdu.payload = []
  · rw [if_pos hpayload, hpayload, List.append_nil]
  · rw [if_neg hpayload]
    by_cases hzero : block.offset = 0
    · have hfront : front = [] := List.length_eq_zero_iff.mp (hoffset.symm.trans hzero)
      subst hfront
      rw [if_pos hzero]
      have hclear : clearReqBuf (holding key reqType []) = holding key reqType [] := by
        simp only [clearReqBuf, holding]
        rfl
      have hcopy : copyIn (holding key reqType []) 0 pdu.payload =
          some (holding key reqType ([] ++ pdu.payload)) := copyIn_holding hfits
      rw [hclear, hcopy]
      rfl
    · rw [if_neg hzero, hlen, hoffset, if_neg (lt_irrefl _), if_neg (lt_irrefl _),
        copyIn_holding hfits]
      rfl

/-- The whole request in one message. -/
theorem receive_whole (hblock : pdu.block1 = none) (hpayload : pdu.payload ≠ [])
    (hfits : pdu.payload.length ≤ coapReqNodeBufLenMax) :
    receive (holding key reqType []) pdu = some (.complete (holding key reqType pdu.payload)) := by
  have hcopy : copyIn (holding key reqType []) 0 pdu.payload =
      some (holding key reqType pdu.payload) := by
    apply copyIn_holding
    rw [List.length_nil, Nat.zero_add]
    exact hfits
  unfold receive
  simp only [hblock]
  rw [if_pos hpayload, hcopy]
  rfl

/-- Only a message at the start of an upload in progress resets the node. -/
theorem restartUpload_holding (kind : UploadKind)
    (h : ∀ block, pdu.block1 = some block → block.offset = front.length)
    (hwhole : pdu.block1 = none → front = []) :
    restartUpload kind pdu (holding key reqType front) = holding key reqType front := by
  unfold restartUpload
  rw [if_neg]
  rintro ⟨hbyte, hstarts⟩
  have hfront : front = [] := by
    cases hblock : pdu.block1 with
    | none => exact hwhole hblock
    | some block =>
      have hzero := (startsUpload_iff.mp hstarts).2 block hblock
      exact List.length_eq_zero_iff.mp ((h block hblock).symm.trans hzero)
  apply hbyte
  rw [hfront]
  rfl

end Receiving

variable (E : Env)

/-- Options and session are as the handler of the resource wants them. -/
structure Acceptable (resource : Resource) (kind : UploadKind) (request : Request) : Prop where
  resource : request.resource = resource
  contentFormat : request.pdu.contentFormat = [coapMediaTypePkcs10]
  accept : request.pdu.accept = [] ∨ request.pdu.accept = [kind.acceptType]
  tls : request.tls = true
  peerCert : request.peerCert = true

/-- Blocks with the more bit, each from where the one before it ended. -/
def InSequence (sent : Nat) : List Request → Prop
  | [] => True
  | request :: rest =>
      (∃ block, request.pdu.block1 = some block ∧ block.offset = sent ∧ block.m = true) ∧
        InSequence (sent + request.pdu.payload.length) rest

def payloads (requests : List Request) : Bytes :=
  (requests.map fun request => request.pdu.payload).flatten

/-- A Block1 transfer of a request: all blocks but the last, and the last. -/
structure BlockTransfer (csr : Bytes) (blocks : List Request) (last : Request) : Prop where
  sequence : InSequence 0 blocks
  ends : ∃ block, last.pdu.block1 = some block ∧ block.offset = (payloads blocks).length ∧
    block.m = false
  contents : payloads blocks ++ last.pdu.payload = csr

/-- The same request in one message. -/
def unblocked (csr : Bytes) (last : Request) : Request :=
  { last with pdu := { last.pdu with payload := csr, block1 := none } }

/-- The bytes that `csr_buf` gets from a message, with their number: none where
more are awaited or the message is refused. -/
def handedOn (key : Bytes) (state : Option CoapReqNode) (room : Bool) (request : Request) :
    Option Bytes :=
  (startNode E key state room request).bind fun start =>
    if firstByte start.respBuf ≠ 0 then none
    else
      match receive start request.pdu with
      | some (.complete node) => some (upload node)
      | _ => none

/-- The answer to a block that more are awaited after. -/
def Continued (request : Request) (out : Option Outcome) : Prop :=
  ∃ made, out = some made ∧ made.response.code = 231 ∧
    made.response.block1 = request.pdu.block1 ∧ made.call = none

section Steps

variable {E} {key : Bytes} {resource : Resource} {kind : UploadKind}
  {request : Request} {front : Bytes} {node : CoapReqNode}

theorem Acceptable.admission (h : Acceptable resource kind request)
    (hkind : uploadKind E resource = some kind) :
    (handlerOf E request.resource).admission request = none := by
  have hcheck : contentFormatCode
      (estCoapCheckOption request.pdu .contentType coapMediaTypePkcs10) = none := by
    simp [estCoapCheckOption, h.contentFormat, contentFormatCode]
  have hadmit : admitUpload request = none := by
    simp [admitUpload, hcheck, h.tls, h.peerCert]
  rw [h.resource]
  cases resource <;> cases hkind <;> exact hadmit

theorem Acceptable.acceptCode (h : Acceptable resource kind request) :
    acceptCode (estCoapCheckOption request.pdu .accept kind.acceptType) = none := by
  rcases h.accept with haccept | haccept <;>
    simp [estCoapCheckOption, haccept, Handlers.acceptCode]

/-- What becomes of a message that the upload code meets. -/
theorem peerRequest_received (mode : EstMode) {state : Option CoapReqNode} {room : Bool}
    {start : CoapReqNode} (hkind : uploadKind E request.resource = some kind)
    (hstart : startNode E key state room request = some start)
    (hresp : firstByte start.respBuf = 0)
    (haccept : Handlers.acceptCode (estCoapCheckOption request.pdu .accept kind.acceptType) = none) :
    ∃ notices, peerRequest E mode key state room request =
      (match receive start request.pdu with
      | none => none
      | some (.refused code) => some (start, errorExit code none notices)
      | some (.waiting next block) =>
          some (next, {
            response := { code := 231, block1 := some block, payload := [], more := false }
            call := none
            notices := notices })
      | some (.complete next) => finishUpload E mode kind request next notices).map
        fun (next, out) => (some next, out) := by
  unfold startNode at hstart
  split at hstart
  · cases hstart
  · rename_i hadmit
    obtain ⟨node, hlookup, hrestart⟩ := Option.map_eq_some_iff.mp hstart
    rw [hkind] at hrestart
    dsimp only at hrestart
    have hnone : (handlerOf E request.resource).admission request = none := by
      simpa using hadmit
    refine ⟨if firstByte start.reqBuf = 0 then [.reqStart] else [], ?_⟩
    simp only [peerRequest, hnone, hlookup, body_upload hkind, uploadBody, hrestart, haccept]
    exact congrArg (Option.map _) (if_neg (not_not.mpr hresp))

/-- What a message meets on a node that holds `front`. -/
theorem startNode_holding (h : Acceptable resource kind request)
    (hkind : uploadKind E resource = some kind)
    (htouch : touch node kind.reqType = holding key kind.reqType front)
    (hrestart : restartUpload kind request.pdu (holding key kind.reqType front) =
      holding key kind.reqType front) (room : Bool) :
    startNode E key (some node) room request = some (holding key kind.reqType front) := by
  have hresource : uploadKind E request.resource = some kind := by rw [h.resource]; exact hkind
  have hlookup : peerLookup key (some node) room (handlerOf E request.resource).reqType =
      some (holding key kind.reqType front) := by
    rw [← uploadKind_reqType hresource, peerLookup, htouch]
  simp only [startNode, h.admission hkind, hlookup, hresource, Option.map_some, hrestart]
  rfl

theorem block_continued (mode : EstMode) (h : Acceptable resource kind request)
    (hkind : uploadKind E resource = some kind)
    (htouch : touch node kind.reqType = holding key kind.reqType front) {block : Block}
    (hblock : request.pdu.block1 = some block) (hoffset : block.offset = front.length)
    (hmore : block.m = true)
    (hfits : front.length + request.pdu.payload.length ≤ coapReqNodeBufLenMax) (room : Bool) :
    ∃ out, peerStep E mode key (some node) (.request request, room) =
        some (some (holding key kind.reqType (front ++ request.pdu.payload)), out) ∧
      Continued request out := by
  have hrestart : restartUpload kind request.pdu (holding key kind.reqType front) =
      holding key kind.reqType front := by
    apply restartUpload_holding
    · intro other hother
      rw [hblock] at hother
      cases hother
      exact hoffset
    · intro hnone
      rw [hblock] at hnone
      cases hnone
  obtain ⟨notices, hstep⟩ := peerRequest_received mode (h.resource ▸ hkind)
    (startNode_holding h hkind htouch hrestart room) rfl h.acceptCode
  rw [receive_holding hblock hoffset hfits, justRespond, if_pos hmore] at hstep
  simp only [Option.map_some] at hstep
  exact ⟨_, peerStep_request E hstep, _, rfl, rfl, hblock.symm, rfl⟩

/-- The blocks before the last one: each is acknowledged, none leads to a call. -/
theorem run_blocks (mode : EstMode) (hkind : uploadKind E resource = some kind) (front : Bytes)
    (blocks : List (Request × Bool))
    (hall : ∀ input ∈ blocks, Acceptable resource kind input.1)
    (hsequence : InSequence front.length (blocks.map Prod.fst))
    (hfits : front.length + (payloads (blocks.map Prod.fst)).length ≤ coapReqNodeBufLenMax)
    (htouch : touch node kind.reqType = holding key kind.reqType front) :
    ∃ next outs, run (peerStep E mode key) (some node)
        (blocks.map fun input => (.request input.1, input.2)) = some (some next, outs) ∧
      touch next kind.reqType =
        holding key kind.reqType (front ++ payloads (blocks.map Prod.fst)) ∧
      List.Forall₂ Continued (blocks.map Prod.fst) outs := by
  induction blocks generalizing front node with
  | nil => exact ⟨node, [], rfl, by simpa [payloads] using htouch, .nil⟩
  | cons input rest ih =>
    obtain ⟨⟨block, hblock, hoffset, hmore⟩, hrest⟩ := hsequence
    have hpayloads : payloads ((input :: rest).map Prod.fst) =
        input.1.pdu.payload ++ payloads (rest.map Prod.fst) := rfl
    rw [hpayloads, List.length_append] at hfits
    obtain ⟨out, hstep, hcontinued⟩ := block_continued mode (hall input (by simp)) hkind
      htouch hblock hoffset hmore (by omega) input.2
    obtain ⟨next, outs, hrun, hnext, houts⟩ := ih _
      (fun other hother => hall other (by simp [hother]))
      (by rw [List.length_append]; exact hrest) (by rw [List.length_append]; omega)
      (touch_holding key kind.reqType (front ++ input.1.pdu.payload))
    refine ⟨next, out :: outs, run_cons_iff.mpr ⟨_, out, outs, hstep, hrun, rfl⟩, ?_,
      .cons hcontinued houts⟩
    rw [hnext, hpayloads, List.append_assoc]

/-- What an answer says of the request, events aside. -/
def told (result : Option (Option CoapReqNode × Outcome)) :
    Option (Option CoapReqNode × Response × Option EnrollCall) :=
  result.map fun (state, out) => (state, out.response, out.call)

/-- The events before a complete upload are the only thing that the way it came in
can be told from. -/
theorem finishUpload_told (mode : EstMode) (last whole : Request)
    (hanswer : whole.answer = last.answer) (hblock2 : whole.pdu.block2 = last.pdu.block2)
    (notices others : List EndpointNotice) :
    told ((finishUpload E mode kind last node notices).map fun (next, out) => (some next, out)) =
      told ((finishUpload E mode kind whole node others).map fun (next, out) => (some next, out)) := by
  unfold finishUpload
  rw [hanswer]
  split
  · rfl
  · dsimp only
    split
    · rfl
    · split
      · rfl
      · split
        · rfl
        · split
          · rfl
          · split
            · rfl
            · simp only [told, Option.map_some, sendStored, hblock2]

theorem finishUpload_passed (kind : UploadKind) (request : Request) {mode : EstMode} (hmode : mode = .server ∨ mode = .proxy)
    (hlen : node.reqBufLen ≠ 0 ∧ node.reqBufLen ≠ 1 ∧ node.reqBufLen ≠ 2 ∧ node.reqBufLen ≠ 4)
    (notices : List EndpointNotice) :
    ∃ next out, finishUpload E mode kind request node notices = some (next, out) ∧
      out.call = some ⟨kind.enrollReq, upload node, base64Text true (upload node)⟩ := by
  have hlength : (upload node).length = node.reqBufLen := upload_length node
  have hencode := estBase64Encode_twice (upload node) (by omega) (by omega) (by omega) (by omega)
  have htext : base64Text true (upload node) ≠ [] := by
    intro hnil
    have hcount := base64Text_length (upload node)
    rw [hnil, List.length_nil] at hcount
    omega
  have hmodes : ¬ (mode ≠ .server ∧ mode ≠ .proxy) := by
    rintro ⟨hserver, hproxy⟩
    exact hmode.elim hserver hproxy
  unfold upload at hencode htext
  unfold finishUpload
  rw [if_neg hlen.1]
  simp only [hencode, if_neg htext, if_neg hmodes]
  cases enrollCode request.answer.rc with
  | some code => exact ⟨_, _, rfl, rfl⟩
  | none =>
    cases kind.response request.answer with
    | none => exact ⟨_, _, rfl, rfl⟩
    | some data => exact ⟨_, _, rfl, rfl⟩

end Steps

variable {E}

/-- A transfer on a fresh node: every block but the last is acknowledged with its
own Block1 option and leads to no call, and the last one is handled like the one
message that carries the whole request. Requests of one, two and four bytes are
the ones whose base64 text has no room, in either form. -/
theorem blocks_equal_whole (mode : EstMode) {resource : Resource} {kind : UploadKind}
    (hkind : uploadKind E resource = some kind) (key : Bytes) (before : EstCoapReq) {csr : Bytes}
    (hne : csr ≠ []) (hmax : csr.length ≤ coapReqNodeBufLenMax) (blocks : List (Request × Bool))
    (last : Request) (room : Bool)
    (hall : ∀ request ∈ blocks.map Prod.fst ++ [last], Acceptable resource kind request)
    (htransfer : BlockTransfer csr (blocks.map Prod.fst) last) :
    ∃ node outs, run (peerStep E mode key) (some (fresh key before))
        (blocks.map fun input => (.request input.1, input.2)) = some (some node, outs) ∧
      List.Forall₂ Continued (blocks.map Prod.fst) outs ∧
      handedOn E key (some node) room last = some csr ∧
      handedOn E key (some (fresh key before)) room (unblocked csr last) = some csr ∧
      told (peerRequest E mode key (some node) room last) =
        told (peerRequest E mode key (some (fresh key before)) room (unblocked csr last)) ∧
      (mode = .server ∨ mode = .proxy → csr.length ≠ 1 → csr.length ≠ 2 → csr.length ≠ 4 →
        ∃ next out, peerRequest E mode key (some node) room last = some (next, out) ∧
          out.call = some ⟨kind.enrollReq, csr, base64Text true csr⟩) := by
  obtain ⟨block, hblock, hoffset, hends⟩ := htransfer.ends
  have hcontents := htransfer.contents
  have hlength : (payloads (blocks.map Prod.fst)).length + last.pdu.payload.length =
      csr.length := by
    rw [← hcontents, List.length_append]
  have hlast : Acceptable resource kind last := hall last (by simp)
  have hwhole : Acceptable resource kind (unblocked csr last) :=
    ⟨hlast.resource, hlast.contentFormat, hlast.accept, hlast.tls, hlast.peerCert⟩
  have hreset : kind.reqType ≠ .reset := by
    rw [uploadKind_reqType hkind]
    exact reqType_ne_reset resource
  have hfresh := touch_fresh key before kind.reqType hreset
  obtain ⟨node, outs, hrun, hnode, houts⟩ := run_blocks mode hkind [] blocks
    (fun input hinput => hall input.1
      (List.mem_append_left _ (List.mem_map_of_mem hinput)))
    htransfer.sequence (by simp only [List.length_nil]; omega) hfresh
  rw [List.nil_append] at hnode
  -- the two ways to the same complete node
  have hreceive : receive (holding key kind.reqType (payloads (blocks.map Prod.fst))) last.pdu =
      some (.complete (holding key kind.reqType csr)) := by
    rw [receive_holding hblock hoffset (by omega), justRespond, if_neg (by simp [hends]), hcontents]
  have hreceiveWhole : receive (holding key kind.reqType []) (unblocked csr last).pdu =
      some (.complete (holding key kind.reqType csr)) := receive_whole rfl hne hmax
  have hrestart : restartUpload kind last.pdu
      (holding key kind.reqType (payloads (blocks.map Prod.fst))) =
        holding key kind.reqType (payloads (blocks.map Prod.fst)) := by
    apply restartUpload_holding
    · intro other hother
      rw [hblock] at hother
      cases hother
      exact hoffset
    · intro hnone
      rw [hblock] at hnone
      cases hnone
  have hrestartWhole : restartUpload kind (unblocked csr last).pdu (holding key kind.reqType []) =
      holding key kind.reqType [] := by
    apply restartUpload_holding
    · intro other hother
      cases hother
    · intro _
      rfl
  have hstart := startNode_holding hlast hkind hnode hrestart room
  have hstartWhole := startNode_holding hwhole hkind hfresh hrestartWhole room
  obtain ⟨notices, hstep⟩ :=
    peerRequest_received mode (hlast.resource ▸ hkind) hstart rfl hlast.acceptCode
  obtain ⟨others, hstepWhole⟩ :=
    peerRequest_received mode (hwhole.resource ▸ hkind) hstartWhole rfl hwhole.acceptCode
  rw [hreceive] at hstep
  rw [hreceiveWhole] at hstepWhole
  refine ⟨node, outs, hrun, houts, ?_, ?_, ?_, ?_⟩
  · rw [handedOn, hstart, Option.bind_some, if_neg (by simp [holding, blank, firstByte]), hreceive]
    simp
  · rw [handedOn, hstartWhole, Option.bind_some, if_neg (by simp [holding, blank, firstByte]),
      hreceiveWhole]
    simp
  · rw [hstep, hstepWhole]
    exact finishUpload_told mode last (unblocked csr last) rfl rfl notices others
  · intro hmode hone htwo hfour
    have hzero : csr.length ≠ 0 := fun hzero => hne (List.length_eq_zero_iff.mp hzero)
    obtain ⟨next, out, hfinish, hcall⟩ := finishUpload_passed (E := E) kind last hmode
      (show (holding key kind.reqType csr).reqBufLen ≠ 0 ∧ _ from ⟨hzero, hone, htwo, hfour⟩) notices
    rw [upload_holding] at hcall
    refine ⟨some next, out, ?_, hcall⟩
    rw [hstep]
    simp only [hfinish, Option.map_some]

section Instances

open LibEst.Coap.ReferenceEnv

/-- Twenty bytes with a zero in front, in two blocks of at most sixteen. -/
def zeroFirst : Bytes := 0 :: ascii "first sixteen bytes"

def zeroBlock : Request := senRetry (blockPdu 0 true (zeroFirst.take 16))

def zeroLast : Request := senRetry (blockPdu 1 false (zeroFirst.drop 16))

theorem blocks_equal_whole_zero_first :
    ∃ node outs, run (peerStep hostEnv .server []) (some (fresh [] .reset))
        [(.request zeroBlock, true)] = some (some node, outs) ∧
      List.Forall₂ Continued [zeroBlock] outs ∧
      handedOn hostEnv [] (some node) true zeroLast = some zeroFirst ∧
      handedOn hostEnv [] (some (fresh [] .reset)) true (unblocked zeroFirst zeroLast) =
        some zeroFirst ∧
      told (peerRequest hostEnv .server [] (some node) true zeroLast) =
        told (peerRequest hostEnv .server [] (some (fresh [] .reset)) true
          (unblocked zeroFirst zeroLast)) := by
  have hall : ∀ request ∈ [(zeroBlock, true)].map Prod.fst ++ [zeroLast],
      Acceptable .sen (senKind hostEnv .sen) request := by
    intro request hrequest
    simp only [List.map_cons, List.map_nil, List.mem_append, List.mem_singleton] at hrequest
    rcases hrequest with rfl | rfl <;> exact ⟨rfl, rfl, Or.inr rfl, rfl, rfl⟩
  have htransfer : BlockTransfer zeroFirst ([(zeroBlock, true)].map Prod.fst) zeroLast := by
    refine ⟨⟨⟨_, rfl, rfl, rfl⟩, trivial⟩, ⟨_, rfl, by decide, rfl⟩, by decide⟩
  obtain ⟨node, outs, hrun, houts, hlast, hwhole, htold, -⟩ := blocks_equal_whole (E := hostEnv)
    .server rfl [] .reset (by decide) (by decide) [(zeroBlock, true)] zeroLast true hall htransfer
  exact ⟨node, outs, hrun, houts, hlast, hwhole, htold⟩

end Instances

end LibEst.Coap.Blockwise
