import LibEst.Coap.Assembly
import LibEst.Coap.Blockwise

/-! The room for uploads. The handlers copy a payload behind the bytes they have
without a look at the size of the buffer, so that the bound rests on what the peer
sends: no message may reach past the end, unless a block is missing before it. -/
namespace LibEst.Coap.UploadBound

open LibEst.Basic LibEst.Lib.ByteString LibEst.Lib.Machine
open LibEst.Coap.ReqTable LibEst.Coap.TableMap LibEst.Coap.Handlers LibEst.Coap.HandlerCases
open LibEst.Coap.Server LibEst.Coap.Assembly LibEst.Coap.Blockwise

/-- Where the bytes of a message would end in the buffer. -/
def reach (pdu : Pdu) : Nat :=
  (match pdu.block1 with | some block => block.offset | none => 0) + pdu.payload.length

/-- The message brings bytes that the buffer has no room for. -/
def DoesNotFit (pdu : Pdu) : Prop := pdu.payload ≠ [] ∧ coapReqNodeBufLenMax < reach pdu

/-- Bytes before the ones of the message have not come in. -/
def Gap (start : CoapReqNode) (pdu : Pdu) : Prop :=
  ∃ block, pdu.block1 = some block ∧ start.reqBufLen < block.offset

variable (E : Env)

/-- The upload code of the `/sen`, `/sren` and `/skg` handlers meets the message on
the node `start`. -/
def Meets (key : Bytes) (state : Option CoapReqNode) (input : Event × Bool) (request : Request)
    (start : CoapReqNode) : Prop :=
  input.1 = .request request ∧ startNode E key state input.2 request = some start ∧
    Reaches E request start

def LengthBounded (state : Option CoapReqNode) : Prop :=
  ∀ node, state = some node → node.reqBufLen ≤ coapReqNodeBufLenMax

/-- One event of a peer as it should be: the length is in bounds, a write into the
buffer stays inside, and what does not fit is refused. -/
structure UploadBounded (mode : EstMode) (key : Bytes) (state : Option CoapReqNode)
    (input : Event × Bool) : Prop where
  length : LengthBounded state
  inside : ∀ request start, Meets E key state input request start →
    receive start request.pdu ≠ none
  refused : ∀ request start, Meets E key state input request start → DoesNotFit request.pdu →
    ∃ next out, peerStep E mode key state input = some (some next, some out) ∧
      400 ≤ out.response.code ∧ next.reqBufLen = start.reqBufLen

/-- No message reaches past the buffer, unless it is ahead of the upload. -/
def StaysInside (key : Bytes) (state : Option CoapReqNode) (input : Event × Bool) : Prop :=
  ∀ request start, Meets E key state input request start → DoesNotFit request.pdu →
    Gap start request.pdu

section Lengths

variable {E} {mode : EstMode} {key : Bytes} {state next : Option CoapReqNode}
  {input : Event × Bool} {out : Option Outcome} {request : Request} {node after start : CoapReqNode}
  {made : Outcome}

private theorem copyIn_bounded {offset : Nat} {data : Bytes}
    (h : copyIn node offset data = some after) : after.reqBufLen ≤ coapReqNodeBufLenMax := by
  obtain ⟨hfits, -, hlen, -⟩ := copyIn_cases h
  rw [hlen]
  exact hfits

/-- The node that a message leaves to the upload, if any. -/
def taken : Received → Option CoapReqNode
  | .refused _ => none
  | .waiting node _ | .complete node => some node

private theorem taken_justRespond (node : CoapReqNode) (block : Block) :
    taken (justRespond node block) = some node := by
  unfold justRespond
  split <;> rfl

theorem receive_bounded {pdu : Pdu} {result : Received} (h : receive start pdu = some result)
    (hlen : start.reqBufLen ≤ coapReqNodeBufLenMax) : LengthBounded (taken result) := by
  have hcopied : ∀ {base : CoapReqNode} {offset : Nat} {block : Block},
      (copyIn base offset pdu.payload).map (justRespond · block) = some result →
      LengthBounded (taken result) := by
    intro base offset block hmap
    obtain ⟨copied, hcopy, rfl⟩ := Option.map_eq_some_iff.mp hmap
    intro node hnode
    rw [taken_justRespond] at hnode
    cases hnode
    exact copyIn_bounded hcopy
  have hkept : ∀ {block : Block}, some (justRespond start block) = some result →
      LengthBounded (taken result) := by
    intro block hsome
    cases hsome
    intro node hnode
    rw [taken_justRespond] at hnode
    cases hnode
    exact hlen
  unfold receive at h
  split at h
  · unfold receiveBlock at h
    split at h
    · exact hkept h
    · split at h
      · exact hcopied h
      · split at h
        · cases h
          simp [LengthBounded, taken]
        · split at h
          · exact hkept h
          · exact hcopied h
  · split at h
    · obtain ⟨copied, hcopy, rfl⟩ := Option.map_eq_some_iff.mp h
      intro node hnode
      cases hnode
      exact copyIn_bounded hcopy
    · split at h
      · cases h
        simp [LengthBounded, taken]
      · cases h
        intro node hnode
        cases hnode
        exact Nat.zero_le _

theorem uploadBody_bounded {kind : UploadKind}
    (h : uploadBody E mode kind request node = some (after, made))
    (hlen : (restartUpload kind request.pdu node).reqBufLen ≤ coapReqNodeBufLenMax) :
    after.reqBufLen ≤ coapReqNodeBufLenMax := by
  simp only [uploadBody] at h
  split at h
  · cases h
    exact hlen
  · split at h
    · cases h
      exact hlen
    · split at h
      · cases h
      · cases h
        exact hlen
      · rename_i hreceive
        cases h
        exact receive_bounded hreceive hlen _ rfl
      · rename_i mid hreceive
        have hmid : mid.reqBufLen ≤ coapReqNodeBufLenMax := receive_bounded hreceive hlen _ rfl
        rcases finishUpload_cases h with
          ⟨rfl, -⟩ | ⟨-, call, -, -, -, ⟨rfl, -⟩ | ⟨data, -, rfl, -⟩⟩ <;> exact hmid

/-- A step that runs into nothing undefined keeps the length in bounds. -/
theorem step_bounded (hstep : peerStep E mode key state input = some (next, out))
    (h : LengthBounded state) : LengthBounded next := by
  have hfresh : ∀ key req, (fresh key req).reqBufLen ≤ coapReqNodeBufLenMax :=
    fun _ _ => Nat.zero_le _
  apply peerStep_keeps hfresh _ h hstep
  intro request node after made hnode _ hbody
  cases hkind : uploadKind E request.resource with
  | some kind =>
    rw [body_upload hkind] at hbody
    apply uploadBody_bounded hbody
    exact @restart_keeps (fun node => node.reqBufLen ≤ coapReqNodeBufLenMax) hfresh kind _ _ hnode
  | none =>
    obtain ⟨-, kind, hdownload⟩ := body_download hkind hbody
    rcases downloadBody_cases hdownload with
      ⟨-, rfl, -⟩ | ⟨-, rfl, -⟩ | ⟨-, text, data, -, -, rfl, -⟩ <;> exact hnode

end Lengths

section Steps

variable {E} {key : Bytes} {state : Option CoapReqNode} {input : Event × Bool}
  {start : CoapReqNode}

theorem receive_gap {pdu : Pdu} (hpayload : pdu.payload ≠ []) (hgap : Gap start pdu) :
    receive start pdu = some (.refused 408) := by
  obtain ⟨block, hblock, habove⟩ := hgap
  unfold receive
  simp only [hblock]
  rw [receiveBlock, if_neg hpayload, if_neg (by omega), if_pos habove]

theorem receive_inside {pdu : Pdu} (h : ¬ DoesNotFit pdu) : receive start pdu ≠ none := by
  have hcopy : ∀ (base : CoapReqNode) (offset : Nat),
      offset + pdu.payload.length ≤ coapReqNodeBufLenMax → copyIn base offset pdu.payload ≠ none := by
    intro base offset hfits
    rw [copyIn, if_pos hfits]
    exact Option.some_ne_none _
  unfold receive
  cases hblock : pdu.block1 with
  | none =>
    dsimp only
    by_cases hpayload : pdu.payload = []
    · rw [if_neg (not_not.mpr hpayload)]
      split <;> exact Option.some_ne_none _
    · rw [if_pos hpayload, Ne, Option.map_eq_none_iff]
      apply hcopy
      by_contra hlong
      apply h
      refine ⟨hpayload, ?_⟩
      simp only [reach, hblock]
      omega
  | some block =>
    dsimp only
    unfold receiveBlock
    by_cases hpayload : pdu.payload = []
    · rw [if_pos hpayload]
      exact Option.some_ne_none _
    · have hfits : block.offset + pdu.payload.length ≤ coapReqNodeBufLenMax := by
        by_contra hlong
        apply h
        refine ⟨hpayload, ?_⟩
        simp only [reach, hblock]
        omega
      rw [if_neg hpayload]
      split
      · rw [Ne, Option.map_eq_none_iff]
        exact hcopy _ _ (by omega)
      · split
        · exact Option.some_ne_none _
        · split
          · exact Option.some_ne_none _
          · rw [Ne, Option.map_eq_none_iff]
            exact hcopy _ _ hfits

/-- One event that stays inside, or is ahead of the upload. -/
theorem step_uploadBounded (mode : EstMode) (h : LengthBounded state)
    (hok : StaysInside E key state input) : UploadBounded E mode key state input := by
  refine ⟨h, ?_, ?_⟩
  · intro request start hmeets
    by_cases hfits : DoesNotFit request.pdu
    · rw [receive_gap hfits.1 (hok request start hmeets hfits)]
      exact Option.some_ne_none _
    · exact receive_inside hfits
  · intro request start hmeets hfits
    have hreceive := receive_gap hfits.1 (hok request start hmeets hfits)
    obtain ⟨hevent, hstart, kind, hkind, hresp, haccept⟩ := hmeets
    obtain ⟨notices, hrequest⟩ := peerRequest_received mode hkind hstart hresp haccept
    rw [hreceive] at hrequest
    obtain ⟨event, room⟩ := input
    cases hevent
    exact ⟨start, errorExit 408 none notices, peerStep_request E hrequest, by simp [errorExit], rfl⟩

end Steps

/-- Every run of the events of one peer, from its first message on: as long as no
message reaches past the buffer, or only where a block is missing before it, every
write is inside the buffer, the length never leaves its range, and what does not
fit is refused. -/
theorem uploads_stay_inside (mode : EstMode) (key : Bytes) (inputs : List (Event × Bool))
    (hok : Guarded (peerStep E mode key) (StaysInside E key) none inputs) :
    Guarded (peerStep E mode key) (UploadBounded E mode key) none inputs ∧
      ∀ last outs, run (peerStep E mode key) none inputs = some (last, outs) →
        LengthBounded last := by
  have hmore : ∀ (inputs : List (Event × Bool)) (state : Option CoapReqNode), LengthBounded state →
      Guarded (peerStep E mode key) (StaysInside E key) state inputs →
      Guarded (peerStep E mode key) (UploadBounded E mode key) state inputs := by
    intro inputs
    induction inputs with
    | nil =>
      intro state _ _
      trivial
    | cons input rest ih =>
      intro state hstate hok
      refine ⟨step_uploadBounded mode hstate hok.1, ?_⟩
      intro next out hstep
      exact ih next (step_bounded hstep hstate) (hok.2 next out hstep)
  have hnone : LengthBounded none := by
    intro node hnode
    cases hnode
  refine ⟨hmore inputs none hnone hok, ?_⟩
  intro last outs hrun
  exact run_invariant (fun _ _ _ _ hstate _ hstep => step_bounded hstep hstate) hnone hok hrun

section Instances

open LibEst.Coap.ReferenceEnv

/-- A block of 1024 bytes of an enrollment over `/sen`. -/
def kiloBlock (num : BitVec 20) : Request :=
  senRetry { blockPdu num true (List.replicate 1024 97) with
    block1 := some { num := num, m := true, szx := 6 } }

/-- The block behind the end of the buffer comes alone, and is refused. -/
theorem uploads_stay_inside_gap :
    Guarded (peerStep hostEnv .server []) (UploadBounded hostEnv .server []) none
        [(.connected, true), (.request (kiloBlock 16), true)] ∧
      ∀ last outs, run (peerStep hostEnv .server []) none
        [(.connected, true), (.request (kiloBlock 16), true)] = some (last, outs) →
        LengthBounded last := by
  apply uploads_stay_inside
  refine ⟨?_, ?_⟩
  · rintro request start ⟨hevent, -⟩
    cases hevent
  · intro next out hstep
    cases hstep
    refine ⟨?_, fun _ _ _ => trivial⟩
    rintro request start ⟨hevent, hstart, -⟩ -
    cases hevent
    refine ⟨_, rfl, ?_⟩
    have hlen : start.reqBufLen = 0 := by
      rcases (startNode_cases hstart).2 with hfresh | hstate
      · rw [hfresh]
        rfl
      · cases hstate
        rfl
    rw [hlen]
    decide

/-- Sixteen blocks fill the buffer. -/
def fillingBlocks : List (Request × Bool) :=
  (List.range 16).map fun num => (kiloBlock (BitVec.ofNat 20 num), true)

theorem fillingBlocks_payloads :
    (payloads (fillingBlocks.map Prod.fst)).length = coapReqNodeBufLenMax := by
  have hpayload : ∀ num, (kiloBlock num).pdu.payload.length = 1024 := fun _ => List.length_replicate
  simp [payloads, fillingBlocks, hpayload, List.length_flatten, coapReqNodeBufLenMax,
    Function.comp_def]

theorem fillingBlocks_sequence : InSequence 0 (fillingBlocks.map Prod.fst) := by
  have hpayload : ∀ num, (kiloBlock num).pdu.payload.length = 1024 := fun _ => List.length_replicate
  have hblocks : ∀ count first, first + count ≤ 16 →
      InSequence (first * 1024)
        ((List.range' first count).map fun num => kiloBlock (BitVec.ofNat 20 num)) := by
    intro count
    induction count with
    | zero =>
      intro first _
      trivial
    | succ count ih =>
      intro first hlast
      rw [List.range'_succ, List.map_cons]
      refine ⟨⟨_, rfl, ?_, rfl⟩, ?_⟩
      · have hnum : (BitVec.ofNat 20 first).toNat = first := by
          rw [BitVec.toNat_ofNat, Nat.mod_eq_of_lt (by omega)]
        simp only [Block.offset, hnum]
        rfl
      · have hnext : first * 1024 + 1024 = (first + 1) * 1024 := by omega
        rw [hpayload, hnext]
        exact ih (first + 1) (by omega)
  have hall := hblocks 16 0 (by omega)
  rw [← List.range_eq_range'] at hall
  simpa [fillingBlocks, Function.comp_def] using hall

/-- The seventeenth block is written behind the end of the buffer. -/
theorem uploads_leave_buffer :
    ¬ Guarded (peerStep hostEnv .server []) (UploadBounded hostEnv .server []) none
      ((.connected, true) :: (fillingBlocks.map (fun input => (.request input.1, input.2)) ++
        [(.request (kiloBlock 16), true)])) := by
  intro hall
  have hconnected := hall.2 (some (fresh [] .reset)) none rfl
  have hacceptable : ∀ num, Acceptable .sen (senKind hostEnv .sen) (kiloBlock num) := fun _ =>
    ⟨rfl, rfl, Or.inr rfl, rfl, rfl⟩
  obtain ⟨node, outs, hrun, hnode, -⟩ := run_blocks (E := hostEnv) .server rfl [] fillingBlocks
    (by
      intro input hinput
      obtain ⟨num, -, rfl⟩ := List.mem_map.mp hinput
      exact hacceptable _)
    fillingBlocks_sequence (by rw [fillingBlocks_payloads]; decide) (touch_fresh [] .reset .sen (by decide))
  have hfull := fillingBlocks_payloads
  generalize payloads (fillingBlocks.map Prod.fst) = front at hnode hfull
  rw [List.nil_append] at hnode
  have hlast := (hconnected.append_right hrun).1
  have hoffset : Block.offset ⟨16, true, 6⟩ = front.length := by
    rw [hfull]
    decide
  have hrestart : restartUpload (senKind hostEnv .sen) (kiloBlock 16).pdu (holding [] .sen front) =
      holding [] .sen front := by
    apply restartUpload_holding
    · intro block hblock
      cases hblock
      exact hoffset
    · intro hnone
      cases hnone
  have hstart := startNode_holding (hacceptable 16) rfl hnode hrestart true
  apply hlast.inside _ _ ⟨rfl, hstart, _, rfl, rfl, (hacceptable 16).acceptCode⟩
  have hlen : (holding [] .sen front).reqBufLen = front.length := rfl
  have hreceive : receive (holding [] .sen front) (kiloBlock 16).pdu =
      receiveBlock (holding [] .sen front) ⟨16, true, 6⟩ (List.replicate 1024 97) := rfl
  rw [show (senKind hostEnv Resource.sen).reqType = .sen from rfl, hreceive, receiveBlock, hlen,
    hoffset, if_neg (by simp), hfull, if_neg (by decide), if_neg (lt_irrefl _),
    if_neg (lt_irrefl _), copyIn, if_neg (by rw [List.length_replicate]; decide)]
  rfl

end Instances

end LibEst.Coap.UploadBound
