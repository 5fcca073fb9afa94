import LibEst.Coap.Server

/-! Exchanges of the CoAP server: the messages of a peer up to a response that nothing is
to follow. The application is told of the start of an exchange and of its end, and a book
is kept on what it has been told; it is right for as long as the buffers of the node tell
a first message from a later one. -/
namespace LibEst.Coap.Exchanges

open LibEst.Basic LibEst.Lib.ByteString LibEst.Lib.Machine LibEst.Coap.ReqTable
open LibEst.Coap.TableMap LibEst.Coap.TableInvariant LibEst.Coap.Handlers
open LibEst.Coap.HandlerCases LibEst.Coap.Server

section Books

/-- A block of an upload is acknowledged, or there are more blocks of the response. -/
def unfinished (out : Outcome) : Bool := out.response.more || out.response.block1.isSome

/-- The notices of the exchanges of a peer: those at their end, those that the end of the
session has cut off, and the one in progress. -/
structure Book where
  done : List (List EndpointNotice)
  cut : List (List EndpointNotice)
  current : Option (List EndpointNotice)
  deriving DecidableEq

def Book.empty : Book where
  done := []
  cut := []
  current := none

def Book.busy (book : Book) : Bool := book.current.isSome

def Book.note (book : Book) (event : Event) (out : Option Outcome) : Book :=
  match event, out with
  | .closed, _ => { book with cut := book.cut ++ book.current.toList, current := none }
  | .request _, some out =>
      let notices := book.current.getD [] ++ out.notices
      if unfinished out then { book with current := some notices }
      else { book with done := book.done ++ [notices], current := none }
  | _, _ => book

/-- One start and one end for every exchange, and no end before there is one. -/
structure Book.Balanced (book : Book) : Prop where
  done : ∀ notices ∈ book.done, notices = [.reqStart, .reqEnd]
  cut : ∀ notices ∈ book.cut, notices = [.reqStart]
  current : ∀ notices ∈ book.current, notices = [.reqStart]

theorem Book.empty_balanced : Book.empty.Balanced where
  done notices h := by cases h
  cut notices h := by cases h
  current notices h := by cases h

/-- The notice at the start of an exchange, unless it is in progress already. -/
def opening (busy : Bool) : List EndpointNotice := if busy then [] else [.reqStart]

/-- The notice at the end of an exchange. -/
def closing (out : Outcome) : List EndpointNotice := if unfinished out then [] else [.reqEnd]

theorem opening_append_inj {a b : Bool} {tail : List EndpointNotice} :
    opening a ++ tail = opening b ++ tail ↔ a = b := by
  rw [List.append_cancel_right_eq]
  cases a <;> cases b <;> decide

/-- The notices that a message owes keep the books, and no others do. -/
theorem Book.note_balanced_iff {book : Book} (h : book.Balanced) (request : Request)
    (out : Outcome) :
    (book.note (.request request) (some out)).Balanced ↔
      out.notices = opening book.busy ++ closing out := by
  obtain ⟨done, cut, current⟩ := book
  have hbusy : (Book.mk done cut current).busy = current.isSome := rfl
  rw [hbusy]
  simp only [Book.note, closing]
  cases hrest : unfinished out with
  | true =>
    simp only [if_true, List.append_nil]
    constructor
    · intro hnext
      have hcurrent := hnext.current _ rfl
      cases current with
      | none => exact hcurrent
      | some notices =>
        rw [h.current notices rfl] at hcurrent
        exact List.cons.inj hcurrent |>.2
    · intro howed
      refine ⟨h.done, h.cut, ?_⟩
      intro notices hnotices
      cases hnotices
      rw [howed]
      cases current with
      | none => rfl
      | some notices => rw [h.current notices rfl]; rfl
  | false =>
    simp only [Bool.false_eq_true, if_false]
    constructor
    · intro hnext
      have hdone := hnext.done _ (List.mem_append_right _ (List.mem_singleton_self _))
      cases current with
      | none => exact hdone
      | some notices =>
        rw [h.current notices rfl] at hdone
        exact List.cons.inj hdone |>.2
    · intro howed
      refine ⟨?_, h.cut, by intro notices hnotices; cases hnotices⟩
      intro notices hnotices
      cases List.mem_append.mp hnotices with
      | inl hold => exact h.done notices hold
      | inr hnew =>
        rw [List.mem_singleton.mp hnew, howed]
        cases current with
        | none => rfl
        | some notices => rw [h.current notices rfl]; rfl

theorem Book.note_closed {book : Book} (h : book.Balanced) (out : Option Outcome) :
    (book.note .closed out).Balanced where
  done := h.done
  cut notices hnotices := by
    cases List.mem_append.mp hnotices with
    | inl hold => exact h.cut notices hold
    | inr hnew => exact h.current notices (Option.mem_toList.mp hnew)
  current notices hnotices := by cases hnotices

end Books

section Notices

variable {E : Env} {mode : EstMode} {node next : CoapReqNode} {request : Request} {out : Outcome}
  {notices : List EndpointNotice}

theorem errorExit_notices (code : Nat) (call : Option EnrollCall) (notices : List EndpointNotice) :
    (errorExit code call notices).notices = notices ++ closing (errorExit code call notices) := rfl

theorem sendStored_notices (code : Nat) (codeLast : Bool) (node : CoapReqNode) (pdu : Pdu)
    (call : Option EnrollCall) (notices : List EndpointNotice) :
    (sendStored E code codeLast node pdu call notices).notices =
      notices ++ closing (sendStored E code codeLast node pdu call notices) := by
  simp only [sendStored, closing, unfinished, Option.isSome_none, Bool.or_false]
  split
  · rw [List.append_nil]
  · rfl

theorem finishUpload_notices {kind : UploadKind}
    (h : finishUpload E mode kind request node notices = some (next, out)) :
    out.notices = notices ++ closing out := by
  rcases finishUpload_cases h with
    ⟨-, code, rfl⟩ | ⟨-, call, -, -, -, ⟨-, code, rfl⟩ | ⟨data, -, -, rfl⟩⟩
  · exact errorExit_notices ..
  · exact errorExit_notices ..
  · exact sendStored_notices ..

/-- An upload goes on where one of the buffers begins with a byte that is not zero. -/
def uploadUnderway (node : CoapReqNode) : Bool :=
  firstByte node.respBuf ≠ 0 ∨ firstByte node.reqBuf ≠ 0

theorem uploadBody_notices {kind : UploadKind}
    (h : uploadBody E mode kind request node = some (next, out)) :
    out.notices =
      opening (uploadUnderway (restartUpload kind request.pdu node)) ++ closing out := by
  simp only [uploadBody] at h
  split at h
  · rename_i hresp
    cases h
    have hopen : opening (uploadUnderway (restartUpload kind request.pdu node)) = [] := by
      simp [uploadUnderway, opening, hresp]
    rw [hopen]
    exact sendStored_notices ..
  · rename_i hresp
    have hopen : opening (uploadUnderway (restartUpload kind request.pdu node)) =
        if firstByte (restartUpload kind request.pdu node).reqBuf = 0 then [.reqStart] else [] := by
      by_cases hreq : firstByte (restartUpload kind request.pdu node).reqBuf = 0 <;>
        simp [uploadUnderway, opening, not_not.mp hresp, hreq]
    rw [hopen]
    split at h
    · cases h
      exact errorExit_notices ..
    · split at h
      · cases h
      · cases h
        exact errorExit_notices ..
      · cases h
        exact (List.append_nil _).symm
      · exact finishUpload_notices h

/-- A download goes on where the buffer of the response does not begin with zero. A
message that `/crts` refuses for its Accept option is taken for a later one, too. -/
def downloadUnderway (kind : DownloadKind) (pdu : Pdu) (node : CoapReqNode) : Bool :=
  firstByte node.respBuf ≠ 0 ∨ (kind.startFirst = false ∧
    acceptCode (estCoapCheckOption pdu .accept kind.acceptType) ≠ none)

theorem downloadBody_notices {kind : DownloadKind}
    (h : downloadBody E mode kind request node = some (next, out)) :
    out.notices = opening (downloadUnderway kind request.pdu node) ++ closing out := by
  simp only [downloadBody] at h
  split at h
  · rename_i hresp
    cases h
    have hopen : opening (downloadUnderway kind request.pdu node) = [] := by
      simp [downloadUnderway, opening, hresp]
    rw [hopen]
    exact sendStored_notices ..
  · rename_i hresp
    split at h
    · rename_i code haccept
      cases h
      have hopen : opening (downloadUnderway kind request.pdu node) =
          if kind.startFirst then [.reqStart] else [] := by
        cases hfirst : kind.startFirst <;>
          simp [downloadUnderway, opening, not_not.mp hresp, haccept, hfirst]
      rw [hopen]
      exact errorExit_notices ..
    · rename_i haccept
      have hopen : opening (downloadUnderway kind request.pdu node) = [.reqStart] := by
        simp [downloadUnderway, opening, not_not.mp hresp, haccept]
      rw [hopen]
      split at h
      · cases h
        exact errorExit_notices ..
      · split at h
        · cases h
          exact errorExit_notices ..
        · split at h
          · cases h
            exact errorExit_notices ..
          · split at h
            · cases h
              exact errorExit_notices ..
            · cases h
              exact sendStored_notices ..

end Notices

section Peers

variable {E : Env} {mode : EstMode} {key : Bytes} {state next : Option CoapReqNode} {room : Bool}
  {request : Request} {out : Outcome}

/-- The Content-Format option of an upload is checked before anything is announced. -/
def wrongFormat (request : Request) : Bool :=
  match request.resource with
  | .sen | .sren | .skg =>
      (contentFormatCode
        (estCoapCheckOption request.pdu .contentType coapMediaTypePkcs10)).isSome
  | .crts | .att => false

/-- Whether a handler takes a message for a later one of an exchange, from what it finds
in the node. -/
def underway (request : Request) (node : CoapReqNode) : Bool :=
  match request.resource with
  | .sen | .sren | .skg => uploadUnderway node
  | .crts => downloadUnderway crtsKind request.pdu node
  | .att => downloadUnderway attKind request.pdu node

/-- The same of a message before the lookup; one that gets no node is taken for a later
one, too. Null where no notice goes out whatever the message is. -/
def takenAsLater (E : Env) (key : Bytes) (state : Option CoapReqNode) (room : Bool)
    (request : Request) : Option Bool :=
  if wrongFormat request then none
  else
    match startNode E key state room request with
    | none => some true
    | some node => some (underway request node)

theorem admission_notices (h : (handlerOf E request.resource).admission request = some out) :
    (wrongFormat request = true ∧ out.notices = [] ∧ unfinished out = false) ∨
      (wrongFormat request = false ∧ out.notices = opening true ++ closing out) := by
  have hupload : admitUpload request = some out →
      ((contentFormatCode (estCoapCheckOption request.pdu .contentType
          coapMediaTypePkcs10)).isSome = true ∧ out.notices = [] ∧ unfinished out = false) ∨
        ((contentFormatCode (estCoapCheckOption request.pdu .contentType
          coapMediaTypePkcs10)).isSome = false ∧ out.notices = opening true ++ closing out) := by
    intro hadmit
    unfold admitUpload at hadmit
    split at hadmit
    · rename_i code hcode
      cases hadmit
      rw [hcode]
      exact Or.inl ⟨rfl, rfl, rfl⟩
    · rename_i hcode
      rw [hcode]
      apply Or.inr
      split at hadmit
      · cases hadmit
        exact ⟨rfl, rfl⟩
      · split at hadmit
        · cases hadmit
          exact ⟨rfl, rfl⟩
        · cases hadmit
  have hdownload : ∀ kind, admitDownload kind request = some out →
      out.notices = opening true ++ closing out := by
    intro kind hadmit
    unfold admitDownload at hadmit
    split at hadmit
    · cases hadmit
      rfl
    · cases hadmit
  unfold wrongFormat
  cases hres : request.resource with
  | sen | sren | skg =>
    rw [hres] at h
    exact hupload h
  | crts | att =>
    rw [hres] at h
    exact Or.inr ⟨rfl, hdownload _ h⟩

/-- A request that is let through has the format of its resource. -/
theorem wrongFormat_of_admitted (h : (handlerOf E request.resource).admission request = none) :
    wrongFormat request = false := by
  have hupload : admitUpload request = none →
      (contentFormatCode (estCoapCheckOption request.pdu .contentType
        coapMediaTypePkcs10)).isSome = false := by
    intro hadmit
    unfold admitUpload at hadmit
    split at hadmit
    · cases hadmit
    · rename_i hcode
      rw [hcode]
      rfl
  unfold wrongFormat
  cases hres : request.resource with
  | sen | sren | skg =>
    rw [hres] at h
    exact hupload h
  | crts | att => rfl

theorem body_notices {node after : CoapReqNode}
    (h : (handlerOf E request.resource).body mode request node = some (after, out)) :
    out.notices = opening (underway request
      (match uploadKind E request.resource with
        | some kind => restartUpload kind request.pdu node
        | none => node)) ++ closing out := by
  unfold underway
  cases hres : request.resource with
  | sen | sren | skg =>
    rw [hres] at h
    exact uploadBody_notices h
  | crts | att =>
    rw [hres] at h
    exact downloadBody_notices h

/-- A message of a peer emits the notices that are owed just where it is taken for what
it is. -/
theorem peerRequest_notices_iff
    (h : peerRequest E mode key state room request = some (next, out)) (busy : Bool) :
    out.notices = opening busy ++ closing out ↔
      takenAsLater E key state room request = some busy := by
  have htaken : ∀ later, out.notices = opening later ++ closing out →
      takenAsLater E key state room request = some later →
      (out.notices = opening busy ++ closing out ↔
        takenAsLater E key state room request = some busy) := by
    intro later hnotices hlater
    rw [hnotices, hlater, opening_append_inj, Option.some.injEq]
  unfold peerRequest at h
  dsimp only at h
  split at h
  · rename_i refused hadmit
    cases h
    have hstart : startNode E key state room request = none := by
      rw [startNode, hadmit]
      rfl
    cases admission_notices hadmit with
    | inl hwrong =>
      have hnull : takenAsLater E key state room request = none := by
        rw [takenAsLater, hwrong.1]
        rfl
      rw [hnull, hwrong.2.1, closing, hwrong.2.2]
      apply iff_of_false
      · intro hnil
        have hlen := congrArg List.length hnil
        simp at hlen
      · intro hsome
        cases hsome
    | inr hright =>
      apply htaken true hright.2
      rw [takenAsLater, hright.1, hstart]
      rfl
  · rename_i hadmit
    have hformat := wrongFormat_of_admitted hadmit
    split at h
    · rename_i hlookup
      cases h
      apply htaken true rfl
      rw [takenAsLater, hformat, startNode, hadmit, hlookup]
      rfl
    · rename_i node hlookup
      obtain ⟨⟨after, made⟩, hbody, heq⟩ := Option.map_eq_some_iff.mp h
      cases heq
      apply htaken _ (body_notices hbody)
      rw [takenAsLater, hformat, startNode, hadmit, hlookup]
      rfl

end Peers

section Runs

variable (E : Env)

/-- The server beside the books of all peers. -/
def keepBooks (_ : CoapCtx) (input : PeerEvent) (out : Option Outcome) (books : SockAddr → Book) :
    SockAddr → Book :=
  Function.update books input.peer ((books input.peer).note input.event out)

def bookedStep : CoapCtx × (SockAddr → Book) → PeerEvent →
    Option ((CoapCtx × (SockAddr → Book)) × Option Outcome) :=
  tracked (serverStep E) keepBooks

/-- A message is taken for a later one of an exchange just where there is an exchange in
progress. -/
def Timely (s : CoapCtx × (SockAddr → Book)) (input : PeerEvent) : Prop :=
  match input.event with
  | .request request =>
      takenAsLater E (peerKey E input.peer) (peerState E s.1 input.peer)
        (peerRoom E s.1 input.peer) request = some (s.2 input.peer).busy
  | _ => True

instance (s : CoapCtx × (SockAddr → Book)) (input : PeerEvent) : Decidable (Timely E s input) :=
  match h : input.event with
  | .connected => .isTrue (by rw [Timely, h]; trivial)
  | .closed => .isTrue (by rw [Timely, h]; trivial)
  | .request request =>
      decidable_of_iff (takenAsLater E (peerKey E input.peer) (peerState E s.1 input.peer)
        (peerRoom E s.1 input.peer) request = some (s.2 input.peer).busy) (by rw [Timely, h])

/-- The step keeps inside the buffers of its node. -/
def BookedDefined (s : CoapCtx × (SockAddr → Book)) (input : PeerEvent) : Prop :=
  StepDefined E s.1 input

def BooksBalanced (s : CoapCtx × (SockAddr → Book)) : Prop :=
  (TableInv s.1 ∧ s.1.transportMode = .coap) ∧ ∀ peer, (s.2 peer).Balanced

variable {E}

theorem update_balanced_iff {books : SockAddr → Book} (h : ∀ peer, (books peer).Balanced)
    (peer : SockAddr) (book : Book) :
    (∀ other, (Function.update books peer book other).Balanced) ↔ book.Balanced := by
  constructor
  · intro hall
    have hself := hall peer
    rwa [Function.update_self] at hself
  · intro hbook other
    by_cases hother : other = peer
    · rw [hother, Function.update_self]
      exact hbook
    · rw [Function.update_of_ne hother]
      exact h other

theorem bookedStep_exact (s : CoapCtx × (SockAddr → Book)) (input : PeerEvent)
    (h : BooksBalanced s) (hdefined : BookedDefined E s input) :
    ∃ next out, bookedStep E s input = some (next, out) ∧
      (BooksBalanced next ↔ Timely E s input) := by
  obtain ⟨next, out, hstep, -⟩ := tracked_defined h.1 hdefined
  obtain ⟨hinv, hbooks, hpeer⟩ := tracked_spec h.1 hdefined hstep
  refine ⟨next, out, hstep, ?_⟩
  have hbalanced : BooksBalanced next ↔
      ((s.2 input.peer).note input.event out).Balanced := by
    rw [BooksBalanced, hbooks, ← update_balanced_iff h.2]
    exact and_iff_right hinv
  rw [hbalanced, Timely]
  cases hevent : input.event with
  | connected =>
    apply iff_of_true _ trivial
    exact h.2 input.peer
  | closed =>
    apply iff_of_true _ trivial
    exact Book.note_closed (h.2 input.peer) out
  | request request =>
    rw [hevent] at hpeer
    obtain ⟨⟨state, made⟩, hrequest, heq⟩ := Option.map_eq_some_iff.mp hpeer
    cases heq
    rw [Book.note_balanced_iff (h.2 input.peer)]
    exact peerRequest_notices_iff hrequest _

/-- Over a run without overflow, the books are right in all states just where every
message is taken for what it is. -/
theorem books_balanced_iff {ctx : CoapCtx} (hfresh : FreshTable ctx) {inputs : List PeerEvent}
    (hdefined : Guarded (bookedStep E) (BookedDefined E) (ctx, fun _ => Book.empty) inputs) :
    Guarded (bookedStep E) (Timely E) (ctx, fun _ => Book.empty) inputs ↔
      ∀ front mid outs, front <+: inputs →
        run (bookedStep E) (ctx, fun _ => Book.empty) front = some (mid, outs) →
        ∀ peer, (mid.2 peer).Balanced := by
  have hstart : BooksBalanced (ctx, fun _ => Book.empty) :=
    ⟨⟨hfresh.inv, hfresh.coap⟩, fun _ => Book.empty_balanced⟩
  rw [guarded_iff_invariant_of_defined bookedStep_exact hstart hdefined]
  constructor
  · intro hall front mid outs hfront hrun
    exact (hall front mid outs hfront hrun).2
  · intro hall front mid outs hfront hrun
    refine ⟨?_, hall front mid outs hfront hrun⟩
    obtain ⟨back, rfl⟩ := hfront
    have hkeep : ∀ (s : CoapCtx × (SockAddr → Book)) i next out,
        (TableInv s.1 ∧ s.1.transportMode = .coap) → BookedDefined E s i →
        bookedStep E s i = some (next, out) → TableInv next.1 ∧ next.1.transportMode = .coap := by
      intro s i next out hs hok hstep
      exact (tracked_spec hs hok hstep).1
    exact run_invariant hkeep ⟨hfresh.inv, hfresh.coap⟩ hdefined.append_left hrun

end Runs

end LibEst.Coap.Exchanges
