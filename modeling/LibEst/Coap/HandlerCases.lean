import LibEst.Coap.Handlers

/-! What one message can do to the node of its peer, said once for each part of
the handlers: every case names the node it leaves, the response and the
enrollment it causes. -/
namespace LibEst.Coap.HandlerCases

open LibEst.Basic LibEst.Base64 LibEst.Lib.ByteString
open LibEst.Coap.ReqTable LibEst.Coap.Handlers

/-- The bytes of an upload that a node holds. -/
def upload (node : CoapReqNode) : Bytes := readFirst node.reqBuf node.reqBufLen

@[simp] theorem upload_length (node : CoapReqNode) : (upload node).length = node.reqBufLen :=
  readFirst_length _ _

/-- Only the request buffer differs. -/
def SameButUpload (node next : CoapReqNode) : Prop :=
  next = { node with reqBuf := next.reqBuf, reqBufLen := next.reqBufLen }

/-- A message that is not refused completes the upload unless it carries a block
with the more bit. -/
def received (pdu : Pdu) (node : CoapReqNode) : Received :=
  match pdu.block1 with
  | some block => justRespond node block
  | none => .complete node

section Receiving

variable {node next : CoapReqNode} {pdu : Pdu}

theorem copyIn_cases {offset : Nat} {data : Bytes} (h : copyIn node offset data = some next) :
    offset + data.length ≤ coapReqNodeBufLenMax ∧ SameButUpload node next ∧
      next.reqBufLen = offset + data.length ∧ upload next = readFirst node.reqBuf offset ++ data := by
  unfold copyIn at h
  split at h
  · rename_i hfits
    cases h
    refine ⟨hfits, rfl, rfl, ?_⟩
    simp only [upload]
    exact readFirst_writeAt _ _ _
  · cases h

/-- The four ways a message is taken: it starts the buffer afresh, extends it,
leaves it alone, or finds it empty and carries nothing. -/
inductive Taken (node : CoapReqNode) (pdu : Pdu) (next : CoapReqNode) : Prop where
  | started (hstart : startsUpload pdu = true) (hupload : upload next = pdu.payload)
  | extended (block : Block) (hblock : pdu.block1 = some block) (hpayload : pdu.payload ≠ [])
      (hoffset : block.offset = node.reqBufLen) (hpositive : block.offset ≠ 0)
      (hupload : upload next = upload node ++ pdu.payload)
  | repeated (block : Block) (hblock : pdu.block1 = some block)
      (hskipped : pdu.payload = [] ∨ (block.offset ≠ 0 ∧ block.offset < node.reqBufLen))
      (hsame : next = node)
  | nothing (hblock : pdu.block1 = none) (hpayload : pdu.payload = [])
      (hempty : next.reqBufLen = 0)

/-- A message that is turned away: a block is missing before it, or it carries
nothing while an upload is in progress. -/
inductive TurnedAway (node : CoapReqNode) (pdu : Pdu) : Prop where
  | missing (block : Block) (hblock : pdu.block1 = some block) (hpayload : pdu.payload ≠ [])
      (habove : node.reqBufLen < block.offset)
  | empty (hblock : pdu.block1 = none) (hpayload : pdu.payload = [])

theorem startsUpload_iff : startsUpload pdu = true ↔
    pdu.payload ≠ [] ∧ ∀ block, pdu.block1 = some block → block.offset = 0 := by
  unfold startsUpload
  simp only [decide_eq_true_eq, Option.all_eq_true, Block.offset_eq_zero_iff]

theorem receive_cases {result : Received} (h : receive node pdu = some result) :
    ((∃ code, result = .refused code) ∧ TurnedAway node pdu) ∨
    ∃ next, result = received pdu next ∧ SameButUpload node next ∧ Taken node pdu next := by
  unfold receive at h
  split at h
  · rename_i block hblock
    have hdone : ∀ next, justRespond next block = received pdu next := fun next => by
      simp [received, hblock]
    unfold receiveBlock at h
    split at h
    · rename_i hpayload
      cases h
      exact Or.inr ⟨node, hdone node, rfl, .repeated block hblock (Or.inl hpayload) rfl⟩
    · rename_i hpayload
      split at h
      · rename_i hzero
        obtain ⟨next, hcopy, rfl⟩ := Option.map_eq_some_iff.mp h
        obtain ⟨-, hsame, -, hupload⟩ := copyIn_cases hcopy
        rw [readFirst_zero, List.nil_append] at hupload
        refine Or.inr ⟨next, hdone next, hsame, .started (startsUpload_iff.mpr ⟨hpayload, ?_⟩) hupload⟩
        intro other hother
        rw [hblock] at hother
        cases hother
        exact hzero
      · rename_i hpositive
        split at h
        · rename_i habove
          cases h
          exact Or.inl ⟨⟨408, rfl⟩, .missing block hblock hpayload habove⟩
        · rename_i hnotAbove
          split at h
          · rename_i hbelow
            cases h
            exact Or.inr ⟨node, hdone node, rfl,
              .repeated block hblock (Or.inr ⟨hpositive, hbelow⟩) rfl⟩
          · rename_i hnotBelow
            have hoffset : block.offset = node.reqBufLen := by omega
            obtain ⟨next, hcopy, rfl⟩ := Option.map_eq_some_iff.mp h
            obtain ⟨-, hsame, -, hupload⟩ := copyIn_cases hcopy
            rw [hoffset] at hupload
            exact Or.inr ⟨next, hdone next, hsame,
              .extended block hblock hpayload hoffset hpositive hupload⟩
  · rename_i hblock
    have hdone : ∀ next, Received.complete next = received pdu next := fun next => by
      simp [received, hblock]
    split at h
    · rename_i hpayload
      obtain ⟨next, hcopy, rfl⟩ := Option.map_eq_some_iff.mp h
      obtain ⟨-, hsame, -, hupload⟩ := copyIn_cases hcopy
      rw [readFirst_zero, List.nil_append] at hupload
      refine Or.inr ⟨next, hdone next, hsame, .started (startsUpload_iff.mpr ⟨hpayload, ?_⟩) hupload⟩
      intro other hother
      rw [hblock] at hother
      cases hother
    · rename_i hpayload
      split at h
      · cases h
        exact Or.inl ⟨⟨400, rfl⟩, .empty hblock (not_not.mp hpayload)⟩
      · cases h
        exact Or.inr ⟨clearReqBuf node, hdone _, rfl, .nothing hblock (not_not.mp hpayload) rfl⟩

end Receiving

section Bodies

variable {E : Env} {mode : EstMode} {node next : CoapReqNode} {request : Request} {out : Outcome}

/-- The end of an upload: nothing was passed on, the core refused the request,
or its answer was stored and is being sent. -/
theorem finishUpload_cases {kind : UploadKind} {notices : List EndpointNotice}
    (h : finishUpload E mode kind request node notices = some (next, out)) :
    (next = node ∧ ∃ code, out = errorExit code none notices) ∨
    (node.reqBufLen ≠ 0 ∧ ∃ call : EnrollCall, call.enrollReq = kind.enrollReq ∧
      call.csr = upload node ∧ call.b64 = base64Text true (upload node) ∧
      ((next = node ∧ ∃ code, out = errorExit code (some call) notices) ∨
        ∃ data, kind.response request.answer = some data ∧ next = storeResponse node data ∧
          out = sendStored E 204 false next request.pdu (some call) notices)) := by
  simp only [finishUpload, readFirst_length] at h
  split at h
  · cases h
    exact Or.inl ⟨rfl, 400, rfl⟩
  · rename_i hlen
    split at h
    · cases h
    · rename_i b64 hencode
      split at h
      · cases h
        exact Or.inl ⟨rfl, 500, rfl⟩
      · rename_i hb64
        have htext : b64 = base64Text true (upload node) := by
          unfold estBase64Encode at hencode
          simp only [readFirst_length] at hencode
          split at hencode
          · cases hencode
            exact absurd rfl hb64
          · split at hencode
            · cases hencode
              exact absurd rfl hb64
            · split at hencode
              · cases hencode
                rfl
              · cases hencode
        split at h
        · cases h
          exact Or.inl ⟨rfl, 500, rfl⟩
        · refine Or.inr ⟨hlen, ⟨kind.enrollReq, upload node, b64⟩, rfl, rfl, htext, ?_⟩
          split at h
          · cases h
            exact Or.inl ⟨rfl, _, rfl⟩
          · split at h
            · cases h
              exact Or.inl ⟨rfl, 500, rfl⟩
            · rename_i data hdata
              cases h
              exact Or.inr ⟨data, hdata, rfl, rfl⟩

/-- One message of an upload, seen from the node it starts with. -/
theorem uploadBody_cases {kind : UploadKind}
    (h : uploadBody E mode kind request node = some (next, out)) :
    ∃ start, start = restartUpload kind request.pdu node ∧
    ((firstByte start.respBuf ≠ 0 ∧ next = start ∧
        out = sendStored E 204 false start request.pdu none []) ∨
      (firstByte start.respBuf = 0 ∧ next = start ∧
        (acceptCode (estCoapCheckOption request.pdu .accept kind.acceptType) ≠ none ∨
          TurnedAway start request.pdu) ∧
        ∃ code notices, out = errorExit code none notices) ∨
      (firstByte start.respBuf = 0 ∧
        acceptCode (estCoapCheckOption request.pdu .accept kind.acceptType) = none ∧
        SameButUpload start next ∧ Taken start request.pdu next ∧
        (∃ block, request.pdu.block1 = some block ∧ block.m = true) ∧
        out.call = none ∧ out.response.payload = [] ∧ out.response.more = false) ∨
      (firstByte start.respBuf = 0 ∧
        acceptCode (estCoapCheckOption request.pdu .accept kind.acceptType) = none ∧
        ∃ mid notices, SameButUpload start mid ∧ Taken start request.pdu mid ∧
        (∀ block, request.pdu.block1 = some block → block.m = false) ∧
        finishUpload E mode kind request mid notices = some (next, out))) := by
  refine ⟨restartUpload kind request.pdu node, rfl, ?_⟩
  simp only [uploadBody] at h
  split at h
  · rename_i hresp
    cases h
    exact Or.inl ⟨hresp, rfl, rfl⟩
  · rename_i hresp
    replace hresp := not_not.mp hresp
    split at h
    · rename_i haccept
      cases h
      exact Or.inr (Or.inl ⟨hresp, rfl, Or.inl (by simp [haccept]), _, _, rfl⟩)
    · rename_i haccept
      split at h
      · cases h
      · rename_i hreceive
        cases h
        refine Or.inr (Or.inl ⟨hresp, rfl, Or.inr ?_, _, _, rfl⟩)
        rcases receive_cases hreceive with ⟨-, haway⟩ | ⟨mid', hresult, -⟩
        · exact haway
        · unfold received justRespond at hresult
          split at hresult
          · split at hresult <;> cases hresult
          · cases hresult
      · rename_i mid block hreceive
        rcases receive_cases hreceive with ⟨⟨code, hcode⟩, -⟩ | ⟨mid', hresult, hsame, htaken⟩
        · cases hcode
        · cases h
          unfold received justRespond at hresult
          split at hresult
          · rename_i block' hblock'
            split at hresult
            · rename_i hmore
              cases hresult
              exact Or.inr (Or.inr (Or.inl
                ⟨hresp, haccept, hsame, htaken, ⟨block, hblock', hmore⟩, rfl, rfl, rfl⟩))
            · cases hresult
          · cases hresult
      · rename_i mid hreceive
        rcases receive_cases hreceive with ⟨⟨code, hcode⟩, -⟩ | ⟨mid', hresult, hsame, htaken⟩
        · cases hcode
        · have hlast : mid = mid' ∧ ∀ block, request.pdu.block1 = some block → block.m = false := by
            unfold received justRespond at hresult
            split at hresult
            · rename_i block hblock
              split at hresult
              · cases hresult
              · rename_i hmore
                cases hresult
                refine ⟨rfl, ?_⟩
                intro other hother
                rw [hblock] at hother
                cases hother
                simpa using hmore
            · rename_i hblock
              cases hresult
              refine ⟨rfl, ?_⟩
              intro other hother
              rw [hblock] at hother
              cases hother
          obtain ⟨rfl, hmore⟩ := hlast
          exact Or.inr (Or.inr (Or.inr ⟨hresp, haccept, mid, _, hsame, htaken, hmore, h⟩))

theorem downloadBody_cases {kind : DownloadKind}
    (h : downloadBody E mode kind request node = some (next, out)) :
    (firstByte node.respBuf ≠ 0 ∧ next = node ∧
      out = sendStored E 205 kind.codeLast node request.pdu none []) ∨
    (firstByte node.respBuf = 0 ∧ next = node ∧ ∃ code notices, out = errorExit code none notices) ∨
    (firstByte node.respBuf = 0 ∧ ∃ text data, request.answer.content = some text ∧
      decodeText E text coapReqNodeBufLenMax = some data ∧ next = storeResponse node data ∧
      out = sendStored E 205 kind.codeLast next request.pdu none [.reqStart]) := by
  simp only [downloadBody] at h
  split at h
  · rename_i hresp
    cases h
    exact Or.inl ⟨hresp, rfl, rfl⟩
  · rename_i hresp
    replace hresp := not_not.mp hresp
    split at h
    · cases h
      exact Or.inr (Or.inl ⟨hresp, rfl, _, _, rfl⟩)
    · split at h
      · cases h
        exact Or.inr (Or.inl ⟨hresp, rfl, _, _, rfl⟩)
      · split at h
        · cases h
          exact Or.inr (Or.inl ⟨hresp, rfl, _, _, rfl⟩)
        · split at h
          · cases h
            exact Or.inr (Or.inl ⟨hresp, rfl, _, _, rfl⟩)
          · rename_i text htext
            split at h
            · cases h
              exact Or.inr (Or.inl ⟨hresp, rfl, _, _, rfl⟩)
            · rename_i data hdata
              cases h
              exact Or.inr (Or.inr ⟨hresp, text, data, htext, hdata, rfl, rfl⟩)

/-- No handler changes the key of the node it was handed. -/
theorem body_key {resource : Resource}
    (h : (handlerOf E resource).body mode request node = some (next, out)) :
    next.key = node.key := by
  have hrestart : ∀ kind, (restartUpload kind request.pdu node).key = node.key := by
    intro kind
    unfold restartUpload
    split <;> rfl
  have hupload : ∀ kind, uploadBody E mode kind request node = some (next, out) →
      next.key = node.key := by
    intro kind hbody
    obtain ⟨start, rfl, hcases⟩ := uploadBody_cases hbody
    rcases hcases with ⟨-, rfl, -⟩ | ⟨-, rfl, -⟩ | ⟨-, -, hsame, -⟩ |
      ⟨-, -, mid, notices, hsame, -, -, hfinish⟩
    · exact hrestart kind
    · exact hrestart kind
    · rw [hsame]
      exact hrestart kind
    · have hmid : next.key = mid.key := by
        rcases finishUpload_cases hfinish with
          ⟨rfl, -⟩ | ⟨-, call, -, -, -, ⟨rfl, -⟩ | ⟨data, -, rfl, -⟩⟩ <;> rfl
      rw [hmid, hsame]
      exact hrestart kind
  have hdownload : ∀ kind, downloadBody E mode kind request node = some (next, out) →
      next.key = node.key := by
    intro kind hbody
    rcases downloadBody_cases hbody with ⟨-, rfl, -⟩ | ⟨-, rfl, -⟩ | ⟨-, text, data, -, -, rfl, -⟩ <;> rfl
  cases resource with
  | sen | sren | skg => exact hupload _ h
  | crts | att => exact hdownload _ h

end Bodies

section Definedness

variable {E : Env} {mode : EstMode} {node : CoapReqNode} {request : Request}

/-- How many bytes an upload holds with this message, if it is not refused. -/
def uploadSize (node : CoapReqNode) (pdu : Pdu) : Option Nat :=
  match pdu.block1 with
  | none => if pdu.payload = [] ∧ node.reqBufLen ≠ 0 then none else some pdu.payload.length
  | some block =>
      if pdu.payload = [] then some node.reqBufLen
      else if block.offset = 0 then some pdu.payload.length
      else if block.offset > node.reqBufLen then none
      else if block.offset < node.reqBufLen then some node.reqBufLen
      else some (node.reqBufLen + pdu.payload.length)

/-- The upload stays inside the node's buffer, and a complete one has a length
whose base64 text fits a destination of twice the length. -/
def UploadFits (node : CoapReqNode) (pdu : Pdu) : Prop :=
  ∀ size, uploadSize node pdu = some size → size ≤ coapReqNodeBufLenMax ∧
    ((∀ block, pdu.block1 = some block → block.m = false) → size ≠ 1 ∧ size ≠ 2 ∧ size ≠ 4)

/-- The handler gets as far as taking the message in, and then it fits. -/
def UploadDefined (kind : UploadKind) (request : Request) (node : CoapReqNode) : Prop :=
  firstByte (restartUpload kind request.pdu node).respBuf = 0 →
  acceptCode (estCoapCheckOption request.pdu .accept kind.acceptType) = none →
  UploadFits (restartUpload kind request.pdu node) request.pdu

def BodyDefined (E : Env) (resource : Resource) (request : Request) (node : CoapReqNode) : Prop :=
  match resource with
  | .sen | .sren => UploadDefined (senKind E resource) request node
  | .skg => UploadDefined (skgKind E) request node
  | .crts | .att => True

theorem receive_defined {pdu : Pdu} (h : UploadFits node pdu) :
    ∃ result, receive node pdu = some result ∧
      ∀ next, result = .complete next →
        next.reqBufLen ≠ 1 ∧ next.reqBufLen ≠ 2 ∧ next.reqBufLen ≠ 4 := by
  have hcopy : ∀ start offset, offset + pdu.payload.length ≤ coapReqNodeBufLenMax →
      ∃ next, copyIn start offset pdu.payload = some next ∧
        next.reqBufLen = offset + pdu.payload.length := by
    intro start offset hfits
    exact ⟨_, by rw [copyIn, if_pos hfits], rfl⟩
  have hlast : ∀ next other block, pdu.block1 = some block →
      justRespond next block = .complete other →
      next = other ∧ ∀ b, pdu.block1 = some b → b.m = false := by
    intro next other block hblock hdone
    unfold justRespond at hdone
    split at hdone
    · cases hdone
    · rename_i hmore
      cases hdone
      refine ⟨rfl, ?_⟩
      intro b hb
      rw [hblock] at hb
      cases hb
      simpa using hmore
  unfold UploadFits uploadSize at h
  unfold receive
  split
  · rename_i block hblock
    rw [hblock] at h
    unfold receiveBlock
    by_cases hpayload : pdu.payload = []
    · obtain ⟨-, hshort⟩ := h node.reqBufLen (by simp [hpayload])
      refine ⟨_, by rw [if_pos hpayload], ?_⟩
      intro next hdone
      obtain ⟨rfl, hm⟩ := hlast _ _ block hblock hdone
      exact hshort (hblock ▸ hm)
    · by_cases hzero : block.offset = 0
      · obtain ⟨hmax, hshort⟩ := h pdu.payload.length (by simp [hpayload, hzero])
        obtain ⟨copied, hcopied, hlen⟩ := hcopy (clearReqBuf node) 0 (by omega)
        refine ⟨_, by rw [if_neg hpayload, if_pos hzero, hcopied]; rfl, ?_⟩
        intro next hdone
        obtain ⟨rfl, hm⟩ := hlast _ _ block hblock hdone
        rw [hlen, Nat.zero_add]
        exact hshort (hblock ▸ hm)
      · by_cases habove : block.offset > node.reqBufLen
        · refine ⟨_, by rw [if_neg hpayload, if_neg hzero, if_pos habove], ?_⟩
          intro next hdone
          cases hdone
        · by_cases hbelow : block.offset < node.reqBufLen
          · obtain ⟨-, hshort⟩ := h node.reqBufLen (by simp [hpayload, hzero, habove, hbelow])
            refine ⟨_, by rw [if_neg hpayload, if_neg hzero, if_neg habove, if_pos hbelow], ?_⟩
            intro next hdone
            obtain ⟨rfl, hm⟩ := hlast _ _ block hblock hdone
            exact hshort (hblock ▸ hm)
          · obtain ⟨hmax, hshort⟩ := h (node.reqBufLen + pdu.payload.length)
              (by simp [hpayload, hzero, habove, hbelow])
            have hoffset : block.offset = node.reqBufLen := by omega
            obtain ⟨copied, hcopied, hlen⟩ := hcopy node block.offset (by omega)
            refine ⟨_, by
              rw [if_neg hpayload, if_neg hzero, if_neg habove, if_neg hbelow, hcopied]; rfl, ?_⟩
            intro next hdone
            obtain ⟨rfl, hm⟩ := hlast _ _ block hblock hdone
            rw [hlen, hoffset]
            exact hshort (hblock ▸ hm)
  · rename_i hblock
    rw [hblock] at h
    by_cases hpayload : pdu.payload = []
    · by_cases hlen : node.reqBufLen = 0
      · refine ⟨_, by rw [if_neg (not_not.mpr hpayload), if_neg (not_not.mpr hlen)], ?_⟩
        intro next hdone
        cases hdone
        simp [clearReqBuf]
      · refine ⟨_, by rw [if_neg (not_not.mpr hpayload), if_pos hlen], ?_⟩
        intro next hdone
        cases hdone
    · obtain ⟨hmax, hshort⟩ := h pdu.payload.length (by simp [hpayload])
      obtain ⟨copied, hcopied, hlen⟩ := hcopy node 0 (by omega)
      refine ⟨_, by rw [if_pos hpayload, hcopied]; rfl, ?_⟩
      intro next hdone
      cases hdone
      rw [hlen, Nat.zero_add]
      exact hshort (by simp)

theorem finishUpload_defined {kind : UploadKind} (notices : List EndpointNotice)
    (h : node.reqBufLen ≠ 1 ∧ node.reqBufLen ≠ 2 ∧ node.reqBufLen ≠ 4) :
    ∃ result, finishUpload E mode kind request node notices = some result := by
  by_cases hlen : node.reqBufLen = 0
  · exact ⟨_, by rw [finishUpload, if_pos hlen]⟩
  · have hcsr : (readFirst node.reqBuf node.reqBufLen).length = node.reqBufLen := readFirst_length _ _
    have hencode := estBase64Encode_twice (readFirst node.reqBuf node.reqBufLen)
      (by rw [hcsr]; exact hlen) (by rw [hcsr]; exact h.1) (by rw [hcsr]; exact h.2.1)
      (by rw [hcsr]; exact h.2.2)
    simp only [finishUpload, if_neg hlen, hencode]
    split
    · exact ⟨_, rfl⟩
    · split
      · exact ⟨_, rfl⟩
      · split
        · exact ⟨_, rfl⟩
        · split
          · exact ⟨_, rfl⟩
          · exact ⟨_, rfl⟩

theorem uploadBody_defined {kind : UploadKind} (h : UploadDefined kind request node) :
    ∃ result, uploadBody E mode kind request node = some result := by
  simp only [uploadBody]
  split
  · exact ⟨_, rfl⟩
  · rename_i hresp
    split
    · exact ⟨_, rfl⟩
    · rename_i haccept
      obtain ⟨result, hreceive, hshort⟩ := receive_defined (h (not_not.mp hresp) haccept)
      rw [hreceive]
      cases result with
      | refused code => exact ⟨_, rfl⟩
      | waiting next block => exact ⟨_, rfl⟩
      | complete next => exact finishUpload_defined _ (hshort next rfl)

theorem body_defined (mode : EstMode) {resource : Resource} (h : BodyDefined E resource request node) :
    ∃ next out, (handlerOf E resource).body mode request node = some (next, out) := by
  have hdownload : ∀ kind, ∃ result, downloadBody E mode kind request node = some result := by
    intro kind
    unfold downloadBody
    split
    · exact ⟨_, rfl⟩
    · split
      · exact ⟨_, rfl⟩
      · split
        · exact ⟨_, rfl⟩
        · split
          · exact ⟨_, rfl⟩
          · split
            · exact ⟨_, rfl⟩
            · split <;> exact ⟨_, rfl⟩
  cases resource with
  | sen | sren | skg =>
    obtain ⟨⟨next, out⟩, hbody⟩ := uploadBody_defined h
    exact ⟨next, out, hbody⟩
  | crts | att =>
    obtain ⟨⟨next, out⟩, hbody⟩ := hdownload _
    exact ⟨next, out, hbody⟩

end Definedness

end LibEst.Coap.HandlerCases
