import LibEst.Coap.Server
import LibEst.Coap.ReferenceEnv

/-! Assembly of uploads. A journal beside the server records which messages the
request buffer of a peer was filled from; the server never reads it. With it the
law can be said: what is passed on to the enrollment code is one message, or the
blocks of one transfer in order, and no message is used for two requests. -/
namespace LibEst.Coap.Assembly

open LibEst.Basic LibEst.Base64 LibEst.Lib.ByteString LibEst.Lib.SlotArray LibEst.Lib.Machine
open LibEst.Coap.ReqTable LibEst.Coap.TableMap LibEst.Coap.TableInvariant
open LibEst.Coap.Handlers LibEst.Coap.HandlerCases LibEst.Coap.Server

/-- A message in the request buffer: its place in the run, the session it came
in (the number of session events before it), and the message. -/
structure Entry where
  pos : Nat
  session : Nat
  request : Request

structure Journal where
  clock : Nat
  session : Nat
  taken : List Entry

def emptyJournal : Journal where
  clock := 0
  session := 0
  taken := []

variable (E : Env)

/-- The request gets as far as the code that fills the buffer. -/
def Reaches (request : Request) (start : CoapReqNode) : Prop :=
  ∃ kind, uploadKind E request.resource = some kind ∧ firstByte start.respBuf = 0 ∧
    acceptCode (estCoapCheckOption request.pdu .accept kind.acceptType) = none

instance (request : Request) (start : CoapReqNode) : Decidable (Reaches E request start) :=
  match h : uploadKind E request.resource with
  | none => isFalse (by rintro ⟨kind, hkind, -⟩; rw [h] at hkind; cases hkind)
  | some kind =>
      decidable_of_iff (firstByte start.respBuf = 0 ∧
        acceptCode (estCoapCheckOption request.pdu .accept kind.acceptType) = none) (by
          constructor
          · exact fun hreach => ⟨kind, h, hreach⟩
          · rintro ⟨other, hother, hreach⟩
            rw [h] at hother
            cases hother
            exact hreach)

/-- The block goes behind what the buffer holds, or ends the upload without
adding to it. -/
def appends (start : CoapReqNode) (pdu : Pdu) : Bool :=
  match pdu.block1 with
  | none => false
  | some block => if pdu.payload = [] then !block.m else block.offset = start.reqBufLen

def keptEntries (start : CoapReqNode) (taken : List Entry) : List Entry :=
  if start.reqBufLen = 0 then [] else taken

def takenAfter (start : CoapReqNode) (taken : List Entry) (entry : Entry) : List Entry :=
  if startsUpload entry.request.pdu then [entry]
  else if appends start entry.request.pdu then keptEntries start taken ++ [entry]
  else keptEntries start taken

def noteEvent (key : Bytes) (state : Option CoapReqNode) (input : Event × Bool) (j : Journal) :
    Journal :=
  match input.1 with
  | .connected => { j with clock := j.clock + 1, session := j.session + 1 }
  | .closed => { clock := j.clock + 1, session := j.session + 1, taken := [] }
  | .request request =>
      { j with
        clock := j.clock + 1
        taken :=
          match startNode E key state input.2 request with
          | none => j.taken
          | some start =>
              if Reaches E request start then
                takenAfter start j.taken ⟨j.clock, j.session, request⟩
              else keptEntries start j.taken }

/-- A block that is appended, or that would end an upload in progress, is no
repetition, and follows the block taken last: that one had the more bit and the
number before, and was taken in the current session. -/
def InOrder (j : Journal) (start : CoapReqNode) (pdu : Pdu) : Prop :=
  ∀ block, pdu.block1 = some block → startsUpload pdu = false → start.reqBufLen ≠ 0 →
    (appends start pdu = true ∨ (block.m = false ∧ block.offset < start.reqBufLen)) →
    appends start pdu = true ∧
    ∃ last lastBlock, j.taken.getLast? = some last ∧ last.session = j.session ∧
      last.request.pdu.block1 = some lastBlock ∧ lastBlock.m = true ∧
      block.num.toNat = lastBlock.num.toNat + 1

def AssemblyOk (state : CoapCtx × Journal) (input : PeerEvent) : Prop :=
  StepDefined E state.1 input ∧
  ∀ request start, input.event = .request request →
    startNode E (peerKey E input.peer) (peerState E state.1 input.peer)
      (peerRoom E state.1 input.peer) request = some start →
    Reaches E request start → InOrder state.2 start request.pdu

/-- The server with the journal of the peer whose events it takes. -/
def journaled : CoapCtx × Journal → PeerEvent → Option ((CoapCtx × Journal) × Option Outcome) :=
  tracked (serverStep E) fun ctx input _ j =>
    noteEvent E (peerKey E input.peer) (peerState E ctx input.peer)
      (input.event, peerRoom E ctx input.peer) j

/-- How many sessions were opened or closed. -/
def sessions (events : List Event) : Nat :=
  events.countP fun event => match event with | .request _ => false | _ => true

/-- The request assembled at event `t`: `places` are the events its bytes come
from, all of one session and one resource, the last of them `t` itself. -/
structure Transfer (events : List Event) (t : Nat) (csr : Bytes) (places : List Nat) : Prop where
  last : places.getLast? = some t
  ascending : places.Pairwise (· < ·)
  session : ∀ place ∈ places, ∀ s, place ≤ s → s ≤ t →
    ∃ request, events[s]? = some (.request request)
  messages : ∃ requests : List Request,
    places.map (events[·]?) = requests.map (fun request => some (.request request)) ∧
    csr = (requests.map fun request => request.pdu.payload).flatten ∧
    (∀ a ∈ requests, ∀ b ∈ requests, a.resource = b.resource) ∧
    ((∃ request, requests = [request] ∧ request.pdu.block1 = none) ∨
      ∀ i request, requests[i]? = some request → ∃ block, request.pdu.block1 = some block ∧
        block.num.toNat = i ∧ (block.m = true ↔ i + 1 < requests.length))

section Start

variable {E} {key : Bytes} {state : Option CoapReqNode} {room : Bool} {request : Request}
  {start : CoapReqNode}

/-- The same request buffer, for the same kind of request. -/
structure SameUpload (a b : CoapReqNode) : Prop where
  buf : a.reqBuf = b.reqBuf
  len : a.reqBufLen = b.reqBufLen
  kind : a.curReq = b.curReq

theorem SameUpload.upload {a b : CoapReqNode} (h : SameUpload a b) : upload a = upload b := by
  unfold HandlerCases.upload
  rw [h.buf, h.len]

private theorem admit_call {exit : Outcome}
    (h : (handlerOf E request.resource).admission request = some exit) : exit.call = none := by
  have hupload : admitUpload request = some exit → exit.call = none := by
    intro h
    unfold admitUpload at h
    split at h
    · cases h
      rfl
    · split at h
      · cases h
        rfl
      · split at h
        · cases h
          rfl
        · cases h
  have hdownload : ∀ kind, admitDownload kind request = some exit → exit.call = none := by
    intro kind h
    unfold admitDownload at h
    split at h
    · cases h
      rfl
    · cases h
  cases hres : request.resource <;> rw [hres] at h
  case sen | sren | skg => exact hupload h
  case crts | att => exact hdownload _ h

private theorem download_cases {mode : EstMode} {found node : CoapReqNode} {out : Outcome}
    (hkind : uploadKind E request.resource = none)
    (h : (handlerOf E request.resource).body mode request found = some (node, out)) :
    out.call = none ∧ SameUpload node found := by
  have hbody : ∀ kind, downloadBody E mode kind request found = some (node, out) →
      out.call = none ∧ SameUpload node found := by
    intro kind h
    rcases downloadBody_cases h with
      ⟨-, rfl, rfl⟩ | ⟨-, rfl, code, notices, rfl⟩ | ⟨-, text, data, -, -, rfl, rfl⟩
    · exact ⟨rfl, rfl, rfl, rfl⟩
    · exact ⟨rfl, rfl, rfl, rfl⟩
    · exact ⟨rfl, rfl, rfl, rfl⟩
  cases hres : request.resource <;> rw [hres] at h hkind
  case sen | sren | skg => cases hkind
  case crts | att => exact hbody _ h

private theorem upload_cases {mode : EstMode} {kind : UploadKind} {found node : CoapReqNode}
    {out : Outcome} (hkind : uploadKind E request.resource = some kind)
    (h : uploadBody E mode kind request found = some (node, out)) :
    let start := restartUpload kind request.pdu found
    (out.call = none ∧ SameUpload node start ∧
      (Reaches E request start → TurnedAway start request.pdu)) ∨
    (Reaches E request start ∧ ∃ mid, SameUpload node mid ∧ mid.curReq = start.curReq ∧
      Taken start request.pdu mid ∧
      ∀ call, out.call = some call →
        call.csr = upload mid ∧ call.b64 = base64Text true call.csr ∧ mid.reqBufLen ≠ 0 ∧
        ∀ block, request.pdu.block1 = some block → block.m = false) := by
  obtain ⟨start, rfl, hcases⟩ := uploadBody_cases h
  rcases hcases with ⟨hresp, rfl, rfl⟩ | ⟨-, rfl, haway, code, notices, rfl⟩ |
    ⟨hresp, haccept, hsame, htaken, -, hcall, -⟩ |
    ⟨hresp, haccept, mid, notices, hsame, htaken, hlast, hfinish⟩
  · refine Or.inl ⟨rfl, ⟨rfl, rfl, rfl⟩, ?_⟩
    rintro ⟨-, -, hzero, -⟩
    exact absurd hzero hresp
  · refine Or.inl ⟨rfl, ⟨rfl, rfl, rfl⟩, ?_⟩
    rintro ⟨other, hother, -, haccept⟩
    rw [hkind] at hother
    cases hother
    exact haway.resolve_left (fun hne => hne haccept)
  · refine Or.inr ⟨⟨kind, hkind, hresp, haccept⟩, node, ⟨rfl, rfl, rfl⟩, by rw [hsame], htaken, ?_⟩
    intro call hsome
    rw [hcall] at hsome
    cases hsome
  · refine Or.inr ⟨⟨kind, hkind, hresp, haccept⟩, mid, ?_, by rw [hsame], htaken, ?_⟩
    · rcases finishUpload_cases hfinish with
        ⟨rfl, -⟩ | ⟨-, call, -, -, -, ⟨rfl, -⟩ | ⟨data, -, rfl, -⟩⟩ <;> exact ⟨rfl, rfl, rfl⟩
    · intro call hsome
      rcases finishUpload_cases hfinish with
        ⟨-, code, rfl⟩ | ⟨hlen, made, -, hcsr, hb64, ⟨-, code, rfl⟩ | ⟨data, -, -, rfl⟩⟩
      · cases hsome
      · cases hsome
        exact ⟨hcsr, hcsr ▸ hb64, hlen, hlast⟩
      · cases hsome
        exact ⟨hcsr, hcsr ▸ hb64, hlen, hlast⟩

/-- A request, seen through the journal: it leaves the peer alone, leaves the
buffer as the start node has it, or takes the message in and may pass it on. -/
theorem peerRequest_cases {mode : EstMode} {next : Option CoapReqNode} {out : Outcome}
    (h : peerRequest E mode key state room request = some (next, out)) :
    (startNode E key state room request = none ∧ next = state ∧ out.call = none) ∨
    ∃ start node, startNode E key state room request = some start ∧ next = some node ∧
      ((out.call = none ∧ SameUpload node start ∧
          (Reaches E request start → TurnedAway start request.pdu)) ∨
        (Reaches E request start ∧ ∃ mid, SameUpload node mid ∧ mid.curReq = start.curReq ∧
          Taken start request.pdu mid ∧
          ∀ call, out.call = some call →
            call.csr = upload mid ∧ call.b64 = base64Text true call.csr ∧ mid.reqBufLen ≠ 0 ∧
            ∀ block, request.pdu.block1 = some block → block.m = false)) := by
  unfold peerRequest at h
  simp only at h
  split at h
  · rename_i exit hadmit
    cases h
    exact Or.inl ⟨by simp [startNode, hadmit], rfl, admit_call hadmit⟩
  · rename_i hadmit
    split at h
    · rename_i hlookup
      cases h
      exact Or.inl ⟨by simp [startNode, hadmit, hlookup], rfl, rfl⟩
    · rename_i found hlookup
      obtain ⟨⟨node, out'⟩, hbody, heq⟩ := Option.map_eq_some_iff.mp h
      cases heq
      cases hkind : uploadKind E request.resource with
      | none =>
        obtain ⟨hcall, hsame⟩ := download_cases hkind hbody
        refine Or.inr ⟨found, node, by simp [startNode, hadmit, hlookup, hkind], rfl,
          Or.inl ⟨hcall, hsame, ?_⟩⟩
        rintro ⟨kind, hother, -⟩
        rw [hkind] at hother
        cases hother
      | some kind =>
        rw [body_upload hkind] at hbody
        exact Or.inr ⟨restartUpload kind request.pdu found, node,
          by simp [startNode, hadmit, hlookup, hkind], rfl, upload_cases hkind hbody⟩

end Start

section Contents

/-- One unblocked message, or blocks numbered from zero that announce more up to
the last. -/
def Shape (taken : List Entry) : Prop :=
  (∃ entry, taken = [entry] ∧ entry.request.pdu.block1 = none) ∨
  ∀ i entry, taken[i]? = some entry → ∃ block, entry.request.pdu.block1 = some block ∧
    block.num.toNat = i ∧ (i + 1 < taken.length → block.m = true)

/-- What the journal says about a node with an upload in it. -/
structure Holds (past : List Event) (node : CoapReqNode) (taken : List Entry) : Prop where
  bytes : upload node = (taken.map fun entry => entry.request.pdu.payload).flatten
  ascending : taken.Pairwise fun a b => a.pos < b.pos
  recorded : ∀ entry ∈ taken, past[entry.pos]? = some (.request entry.request) ∧
    entry.session = sessions (past.take entry.pos)
  session : ∀ a ∈ taken, ∀ b ∈ taken, a.session = b.session
  kind : ∀ entry ∈ taken, (handlerOf E entry.request.resource).reqType = node.curReq
  shape : Shape taken

/-- The last message taken ended its upload. -/
def Ended (taken : List Entry) : Prop :=
  ∃ entry, taken.getLast? = some entry ∧
    ∀ block, entry.request.pdu.block1 = some block → block.m = false

variable {E} {past : List Event} {node : CoapReqNode} {taken : List Entry}

theorem Holds.pos_lt (h : Holds E past node taken) {entry : Entry} (hentry : entry ∈ taken) :
    entry.pos < past.length :=
  (List.getElem?_eq_some_iff.mp (h.recorded entry hentry).1).1

theorem Holds.later (h : Holds E past node taken) (event : Event) :
    Holds E (past ++ [event]) node taken where
  bytes := h.bytes
  ascending := h.ascending
  recorded entry hentry := by
    have hlt := h.pos_lt hentry
    rw [List.getElem?_append_left hlt, List.take_append_of_le_length hlt.le]
    exact h.recorded entry hentry
  session := h.session
  kind := h.kind
  shape := h.shape

theorem Holds.of_sameUpload {other : CoapReqNode} (h : Holds E past node taken)
    (hsame : SameUpload other node) : Holds E past other taken where
  bytes := by
    rw [hsame.upload]
    exact h.bytes
  ascending := h.ascending
  recorded := h.recorded
  session := h.session
  kind entry hentry := by
    rw [hsame.kind]
    exact h.kind entry hentry
  shape := h.shape

private theorem recorded_now (past : List Event) (request : Request) :
    (past ++ [Event.request request])[past.length]? = some (Event.request request) ∧
      sessions past = sessions ((past ++ [Event.request request]).take past.length) := by
  simp

/-- The first message of an upload. -/
theorem holds_started {request : Request} (hstart : startsUpload request.pdu = true)
    (hupload : upload node = request.pdu.payload)
    (hkind : node.curReq = (handlerOf E request.resource).reqType) :
    Holds E (past ++ [.request request]) node [⟨past.length, sessions past, request⟩] where
  bytes := by simpa using hupload
  ascending := by simp
  recorded entry hentry := by
    rw [List.mem_singleton] at hentry
    subst hentry
    exact recorded_now past request
  session a ha b hb := by
    rw [List.mem_singleton] at ha hb
    rw [ha, hb]
  kind entry hentry := by
    rw [List.mem_singleton] at hentry
    subst hentry
    exact hkind.symm
  shape := by
    cases hblock : request.pdu.block1 with
    | none => exact Or.inl ⟨_, rfl, hblock⟩
    | some block =>
      refine Or.inr ?_
      intro i entry hi
      have hzero := (startsUpload_iff.mp hstart).2 block hblock
      rw [Block.offset_eq_zero_iff] at hzero
      cases i with
      | zero =>
        cases hi
        exact ⟨block, hblock, by rw [hzero]; rfl, by simp⟩
      | succ i => simp at hi

/-- A block behind the one taken last. -/
theorem holds_appended (h : Holds E past node taken) {request : Request} {mid : CoapReqNode}
    {block lastBlock : Block} {last : Entry}
    (hupload : upload mid = upload node ++ request.pdu.payload)
    (hkind : mid.curReq = (handlerOf E request.resource).reqType) (hcur : mid.curReq = node.curReq)
    (hblock : request.pdu.block1 = some block) (hlast : taken.getLast? = some last)
    (hsession : last.session = sessions past) (hlastBlock : last.request.pdu.block1 = some lastBlock)
    (hmore : lastBlock.m = true) (hnum : block.num.toNat = lastBlock.num.toNat + 1) :
    Holds E (past ++ [.request request]) mid
      (taken ++ [⟨past.length, sessions past, request⟩]) := by
  have hlater := h.later (.request request)
  have hmem : last ∈ taken := List.mem_of_getLast? hlast
  have hlastIndex : taken[taken.length - 1]? = some last := by
    rw [← List.getLast?_eq_getElem?]
    exact hlast
  have hpositive : 0 < taken.length := List.length_pos_of_mem hmem
  have hshape : ∀ i entry, taken[i]? = some entry → ∃ b, entry.request.pdu.block1 = some b ∧
      b.num.toNat = i ∧ (i + 1 < taken.length → b.m = true) := by
    rcases h.shape with ⟨entry, rfl, hnone⟩ | hshape
    · rw [List.getLast?_singleton, Option.some.injEq] at hlast
      rw [← hlast, hnone] at hlastBlock
      cases hlastBlock
    · exact hshape
  obtain ⟨b, hb, hlastNum, -⟩ := hshape _ _ hlastIndex
  rw [hlastBlock] at hb
  cases hb
  refine ⟨?_, ?_, ?_, ?_, ?_, ?_⟩
  · rw [hupload, h.bytes]
    simp
  · rw [List.pairwise_append]
    refine ⟨h.ascending, by simp, ?_⟩
    intro a ha b hb
    rw [List.mem_singleton] at hb
    subst hb
    exact h.pos_lt ha
  · intro entry hentry
    rcases List.mem_append.mp hentry with hold | hnew
    · exact hlater.recorded entry hold
    · rw [List.mem_singleton] at hnew
      subst hnew
      exact recorded_now past request
  · have hall : ∀ entry ∈ taken ++ [⟨past.length, sessions past, request⟩],
        entry.session = sessions past := by
      intro entry hentry
      rcases List.mem_append.mp hentry with hold | hnew
      · exact (h.session entry hold last hmem).trans hsession
      · rw [List.mem_singleton] at hnew
        rw [hnew]
    intro a ha b hb
    rw [hall a ha, hall b hb]
  · intro entry hentry
    rcases List.mem_append.mp hentry with hold | hnew
    · rw [hcur]
      exact h.kind entry hold
    · rw [List.mem_singleton] at hnew
      rw [hnew]
      exact hkind.symm
  · refine Or.inr ?_
    intro i entry hi
    rcases Nat.lt_trichotomy i taken.length with hlt | heq | hgt
    · rw [List.getElem?_append_left hlt] at hi
      obtain ⟨b, hb, hbnum, hbmore⟩ := hshape i entry hi
      refine ⟨b, hb, hbnum, fun _ => ?_⟩
      by_cases hend : i + 1 < taken.length
      · exact hbmore hend
      · obtain rfl : i = taken.length - 1 := by omega
        rw [hlastIndex] at hi
        cases hi
        rw [hlastBlock] at hb
        cases hb
        exact hmore
    · subst heq
      rw [List.getElem?_concat_length] at hi
      cases hi
      refine ⟨block, hblock, by omega, ?_⟩
      simp
    · rw [List.getElem?_eq_none (by simp; omega)] at hi
      cases hi

/-- Two places with the same number of session events before them have none
between them. -/
theorem request_between {i s t : Nat} (his : i ≤ s) (hst : s < t) (ht : t ≤ past.length)
    (hsame : sessions (past.take i) = sessions (past.take t)) :
    ∃ request, past[s]? = some (.request request) := by
  have hs : s < past.length := by omega
  have hstep : past.take (s + 1) = past.take s ++ [past[s]] := List.take_succ_eq_append_getElem hs
  have hlow : sessions (past.take i) ≤ sessions (past.take s) :=
    (List.take_sublist_take_left his).countP_le
  have hhigh : sessions (past.take (s + 1)) ≤ sessions (past.take t) :=
    (List.take_sublist_take_left hst).countP_le
  rw [hstep, sessions, List.countP_append] at hhigh
  rw [List.getElem?_eq_getElem hs]
  cases hevent : past[s] with
  | request request => exact ⟨request, rfl⟩
  | connected =>
    rw [hevent] at hhigh
    simp only [List.countP_singleton, if_true] at hhigh
    unfold sessions at *
    omega
  | closed =>
    rw [hevent] at hhigh
    simp only [List.countP_singleton, if_true] at hhigh
    unfold sessions at *
    omega

/-- A buffer whose last message ended the upload holds one whole transfer. -/
theorem transfer_of_holds (h : Holds E past node taken) {last : Entry}
    (hlast : taken.getLast? = some last)
    (hended : ∀ block, last.request.pdu.block1 = some block → block.m = false) :
    Transfer past last.pos (upload node) (taken.map Entry.pos) where
  last := by simp [hlast]
  ascending := List.pairwise_map.mpr h.ascending
  session := by
    intro place hplace s hlow hhigh
    obtain ⟨entry, hentry, rfl⟩ := List.mem_map.mp hplace
    have hmem := List.mem_of_getLast? hlast
    have hlt := h.pos_lt hmem
    rcases Nat.eq_or_lt_of_le hhigh with rfl | hbefore
    · exact ⟨_, (h.recorded last hmem).1⟩
    · refine request_between hlow hbefore hlt.le ?_
      rw [← (h.recorded entry hentry).2, ← (h.recorded last hmem).2]
      exact h.session entry hentry last hmem
  messages := by
    refine ⟨taken.map Entry.request, ?_, ?_, ?_, ?_⟩
    · rw [List.map_map, List.map_map]
      refine List.map_congr_left ?_
      intro entry hentry
      exact (h.recorded entry hentry).1
    · rw [h.bytes, List.map_map]
      rfl
    · intro a ha b hb
      obtain ⟨x, hx, rfl⟩ := List.mem_map.mp ha
      obtain ⟨y, hy, rfl⟩ := List.mem_map.mp hb
      exact reqType_injective ((h.kind x hx).trans (h.kind y hy).symm)
    · rcases h.shape with ⟨entry, rfl, hnone⟩ | hshape
      · exact Or.inl ⟨entry.request, rfl, hnone⟩
      · refine Or.inr ?_
        intro i request hi
        rw [List.getElem?_map, Option.map_eq_some_iff] at hi
        obtain ⟨entry, hentry, rfl⟩ := hi
        obtain ⟨block, hblock, hnum, hmore⟩ := hshape i entry hentry
        refine ⟨block, hblock, hnum, ?_, by simpa using hmore⟩
        intro hm
        by_contra hend
        have hlt := (List.getElem?_eq_some_iff.mp hentry).1
        obtain rfl : i = taken.length - 1 := by
          rw [List.length_map] at hend
          omega
        rw [← List.getLast?_eq_getElem?, hlast] at hentry
        cases hentry
        rw [hended block hblock] at hm
        cases hm

theorem Transfer.later {t : Nat} {csr : Bytes} {places : List Nat}
    (h : Transfer past t csr places) (event : Event) :
    Transfer (past ++ [event]) t csr places := by
  obtain ⟨requests, hplaces, hcsr, hresource, hshape⟩ := h.messages
  have hlt : ∀ place ∈ places, place < past.length := by
    intro place hplace
    have hmem : past[place]? ∈ places.map (past[·]?) := List.mem_map.mpr ⟨place, hplace, rfl⟩
    rw [hplaces] at hmem
    obtain ⟨request, -, heq⟩ := List.mem_map.mp hmem
    exact (List.getElem?_eq_some_iff.mp heq.symm).1
  refine ⟨h.last, h.ascending, ?_, requests, ?_, hcsr, hresource, hshape⟩
  · intro place hplace s hlow hhigh
    have ht := hlt t (List.mem_of_getLast? h.last)
    rw [List.getElem?_append_left (by omega)]
    exact h.session place hplace s hlow hhigh
  · rw [← hplaces]
    refine List.map_congr_left ?_
    intro place hplace
    rw [List.getElem?_append_left (hlt place hplace)]

end Contents

section Invariant

/-- Event `t` passed a request on. -/
def PassedOn (outs : List (Option Outcome)) (t : Nat) (call : EnrollCall) : Prop :=
  ∃ out, outs[t]? = some (some out) ∧ out.call = some call

/-- The law for one request that was passed on: it is the text of a transfer
that came in after every earlier request was passed on. -/
def Assembled (events : List Event) (outs : List (Option Outcome)) (t : Nat) (call : EnrollCall) :
    Prop :=
  call.b64 = base64Text true call.csr ∧
  ∃ places, Transfer events t call.csr places ∧
    ∀ earlier other, PassedOn outs earlier other → earlier < t → ∀ place ∈ places, earlier < place

structure JournalInv (past : List Event) (outs : List (Option Outcome))
    (state : Option CoapReqNode) (j : Journal) : Prop where
  clock : j.clock = past.length
  outputs : outs.length = past.length
  session : j.session = sessions past
  holds : ∀ node, state = some node → node.reqBufLen ≠ 0 → Holds E past node j.taken ∧
    ∀ t call, PassedOn outs t call → (∀ entry ∈ j.taken, t < entry.pos) ∨ Ended j.taken
  calls : ∀ t call, PassedOn outs t call → Assembled past outs t call

variable {E} {past : List Event} {outs : List (Option Outcome)} {state : Option CoapReqNode}
  {j : Journal}

theorem passedOn_append {out : Option Outcome} {t : Nat} {call : EnrollCall}
    (h : PassedOn (outs ++ [out]) t call) :
    PassedOn outs t call ∨ (t = outs.length ∧ out.bind Outcome.call = some call) := by
  obtain ⟨found, hfound, hcall⟩ := h
  rcases Nat.lt_trichotomy t outs.length with hlt | rfl | hgt
  · rw [List.getElem?_append_left hlt] at hfound
    exact Or.inl ⟨found, hfound, hcall⟩
  · rw [List.getElem?_concat_length] at hfound
    cases hfound
    exact Or.inr ⟨rfl, hcall⟩
  · rw [List.getElem?_eq_none (by simp; omega)] at hfound
    cases hfound

private theorem PassedOn.lt {t : Nat} {call : EnrollCall} (h : PassedOn outs t call) :
    t < outs.length := by
  obtain ⟨out, hout, -⟩ := h
  exact (List.getElem?_eq_some_iff.mp hout).1

/-- Requests that were passed on stay assembled as the run goes on. -/
theorem Assembled.later {t : Nat} {call : EnrollCall} (h : Assembled past outs t call)
    (ht : t < outs.length) (event : Event) (out : Option Outcome) :
    Assembled (past ++ [event]) (outs ++ [out]) t call := by
  obtain ⟨hb64, places, htransfer, hafter⟩ := h
  refine ⟨hb64, places, htransfer.later event, ?_⟩
  intro earlier other hother hlt
  rcases passedOn_append hother with hold | ⟨rfl, -⟩
  · exact hafter earlier other hold hlt
  · omega

/-- An event that passes nothing on. -/
theorem JournalInv.quiet (h : JournalInv E past outs state j) {event : Event}
    {out : Option Outcome} (hout : out.bind Outcome.call = none) {next : Option CoapReqNode}
    {j' : Journal} (hclock : j'.clock = j.clock + 1)
    (hsession : j'.session = sessions (past ++ [event]))
    (hholds : ∀ node, next = some node → node.reqBufLen ≠ 0 →
      Holds E (past ++ [event]) node j'.taken ∧
      ∀ t call, PassedOn outs t call → (∀ entry ∈ j'.taken, t < entry.pos) ∨ Ended j'.taken) :
    JournalInv E (past ++ [event]) (outs ++ [out]) next j' := by
  have hold : ∀ t call, PassedOn (outs ++ [out]) t call → PassedOn outs t call := by
    intro t call hpassed
    rcases passedOn_append hpassed with hold | ⟨-, hnew⟩
    · exact hold
    · rw [hout] at hnew
      cases hnew
  refine ⟨by simp [hclock, h.clock], by simp [h.outputs], hsession, ?_, ?_⟩
  · intro node hnode hlen
    obtain ⟨hcontents, hbefore⟩ := hholds node hnode hlen
    exact ⟨hcontents, fun t call hpassed => hbefore t call (hold t call hpassed)⟩
  · intro t call hpassed
    exact (h.calls t call (hold t call hpassed)).later (hold t call hpassed).lt event out

/-- A message that is not taken in leaves the entries with the buffer. -/
theorem kept_holds (h : JournalInv E past outs state j) {start node : CoapReqNode}
    (hstart : start.reqBufLen = 0 ∨ state = some start) (hsame : SameUpload node start)
    (hlen : node.reqBufLen ≠ 0) (event : Event) :
    Holds E (past ++ [event]) node (keptEntries start j.taken) ∧
      ∀ t call, PassedOn outs t call →
        (∀ entry ∈ keptEntries start j.taken, t < entry.pos) ∨ Ended (keptEntries start j.taken) := by
  have hstartLen : start.reqBufLen ≠ 0 := hsame.len ▸ hlen
  obtain ⟨hholds, hbefore⟩ := h.holds start (hstart.resolve_left hstartLen) hstartLen
  rw [keptEntries, if_neg hstartLen]
  exact ⟨(hholds.of_sameUpload hsame).later event, hbefore⟩

private theorem turnedAway_takenAfter {start : CoapReqNode} {entry : Entry}
    (h : TurnedAway start entry.request.pdu) (taken : List Entry) :
    takenAfter start taken entry = keptEntries start taken := by
  cases h with
  | missing block hblock hpayload habove =>
    have hstarts : startsUpload entry.request.pdu ≠ true := by
      intro hstarts
      have := (startsUpload_iff.mp hstarts).2 block hblock
      omega
    have happends : appends start entry.request.pdu ≠ true := by
      simp [appends, hblock, hpayload]
      omega
    rw [takenAfter, if_neg hstarts, if_neg happends]
  | empty hblock hpayload =>
    have hstarts : startsUpload entry.request.pdu ≠ true := fun hstarts =>
      (startsUpload_iff.mp hstarts).1 hpayload
    have happends : appends start entry.request.pdu ≠ true := by simp [appends, hblock]
    rw [takenAfter, if_neg hstarts, if_neg happends]

section Taking

variable {start mid : CoapReqNode} {request : Request}

/-- An appended message, with what the condition says about the one before. -/
theorem appended_holds (h : JournalInv E past outs state j)
    (hstart : start.reqBufLen = 0 ∨ state = some start)
    (hkind : start.curReq = (handlerOf E request.resource).reqType)
    (horder : InOrder j start request.pdu) {block : Block}
    (hblock : request.pdu.block1 = some block) (hstarts : startsUpload request.pdu = false)
    (hstartLen : start.reqBufLen ≠ 0) (happends : appends start request.pdu = true)
    (hcur : mid.curReq = start.curReq)
    (hupload : upload mid = upload start ++ request.pdu.payload) :
    let entry : Entry := ⟨past.length, sessions past, request⟩
    takenAfter start j.taken entry = j.taken ++ [entry] ∧
      Holds E (past ++ [.request request]) mid (j.taken ++ [entry]) ∧
      ∀ t call, PassedOn outs t call → ∀ e ∈ j.taken ++ [entry], t < e.pos := by
  intro entry
  obtain ⟨-, last, lastBlock, hlast, hsession, hlastBlock, hmore, hnum⟩ :=
    horder block hblock hstarts hstartLen (Or.inl happends)
  obtain ⟨hholds, hbefore⟩ := h.holds start (hstart.resolve_left hstartLen) hstartLen
  refine ⟨?_, ?_, ?_⟩
  · simp [takenAfter, entry, hstarts, happends, keptEntries, hstartLen]
  · exact holds_appended hholds hupload (hcur.trans hkind) hcur hblock hlast
      (hsession.trans h.session) hlastBlock hmore hnum
  · intro t call hpassed e he
    rcases List.mem_append.mp he with hold | hnew
    · refine (hbefore t call hpassed).resolve_right ?_ e hold
      -- the block taken last announced more, so it ended nothing
      rintro ⟨other, hother, hended⟩
      rw [hlast] at hother
      cases hother
      rw [hended lastBlock hlastBlock] at hmore
      cases hmore
    · rw [List.mem_singleton] at hnew
      rw [hnew]
      have := hpassed.lt
      rw [h.outputs] at this
      exact this

theorem taken_holds (h : JournalInv E past outs state j)
    (hstart : start.reqBufLen = 0 ∨ state = some start)
    (hkind : start.curReq = (handlerOf E request.resource).reqType)
    (horder : InOrder j start request.pdu) (htaken : Taken start request.pdu mid)
    (hcur : mid.curReq = start.curReq) (hlen : mid.reqBufLen ≠ 0) :
    let entry : Entry := ⟨past.length, sessions past, request⟩
    Holds E (past ++ [.request request]) mid (takenAfter start j.taken entry) ∧
      (∀ t call, PassedOn outs t call →
        (∀ e ∈ takenAfter start j.taken entry, t < e.pos) ∨ Ended (takenAfter start j.taken entry)) ∧
      ((∀ block, request.pdu.block1 = some block → block.m = false) →
        (takenAfter start j.taken entry).getLast? = some entry ∧
        ∀ t call, PassedOn outs t call → ∀ e ∈ takenAfter start j.taken entry, t < e.pos) := by
  intro entry
  cases htaken with
  | started hstarts hupload =>
    have htakenAfter : takenAfter start j.taken entry = [entry] := by
      simp [takenAfter, entry, hstarts]
    have hafter : ∀ t call, PassedOn outs t call → ∀ e ∈ [entry], t < e.pos := by
      intro t call hpassed e he
      rw [List.mem_singleton] at he
      have := hpassed.lt
      rw [h.outputs] at this
      rw [he]
      exact this
    rw [htakenAfter]
    exact ⟨holds_started hstarts hupload (hcur.trans hkind),
      fun t call hpassed => Or.inl (hafter t call hpassed), fun _ => ⟨rfl, hafter⟩⟩
  | extended block hblock hpayload hoffset hpositive hupload =>
    have hstarts : startsUpload request.pdu = false := by
      rw [Bool.eq_false_iff]
      intro hstarts
      exact hpositive ((startsUpload_iff.mp hstarts).2 block hblock)
    have happends : appends start request.pdu = true := by simp [appends, hblock, hpayload, hoffset]
    obtain ⟨htakenAfter, hholds, hafter⟩ := appended_holds h hstart hkind horder hblock hstarts
      (hoffset ▸ hpositive) happends hcur hupload
    rw [htakenAfter]
    exact ⟨hholds, fun t call hpassed => Or.inl (hafter t call hpassed),
      fun _ => ⟨by simp [entry], hafter⟩⟩
  | repeated block hblock hskipped hsame =>
    subst hsame
    have hstarts : startsUpload request.pdu = false := by
      rw [Bool.eq_false_iff]
      intro hstarts
      rcases hskipped with hpayload | ⟨hpositive, -⟩
      · exact (startsUpload_iff.mp hstarts).1 hpayload
      · exact hpositive ((startsUpload_iff.mp hstarts).2 block hblock)
    cases happends : appends mid request.pdu with
    | true =>
      have hpayload : request.pdu.payload = [] := by
        rcases hskipped with hpayload | ⟨-, hbelow⟩
        · exact hpayload
        · by_contra hpayload
          simp only [appends, hblock, hpayload, if_false, decide_eq_true_eq] at happends
          omega
      obtain ⟨htakenAfter, hholds, hafter⟩ := appended_holds h hstart hkind horder hblock hstarts
        hlen happends rfl (by rw [hpayload, List.append_nil])
      rw [htakenAfter]
      exact ⟨hholds, fun t call hpassed => Or.inl (hafter t call hpassed),
        fun _ => ⟨by simp [entry], hafter⟩⟩
    | false =>
      have htakenAfter : takenAfter mid j.taken entry = keptEntries mid j.taken := by
        simp [takenAfter, entry, hstarts, happends]
      rw [htakenAfter]
      obtain ⟨hholds, hbefore⟩ := kept_holds h hstart ⟨rfl, rfl, rfl⟩ hlen (.request request)
      refine ⟨hholds, hbefore, ?_⟩
      intro hended
      -- a block without the more bit would have been appended, or is a repetition
      exfalso
      have hm := hended block hblock
      have hbelow : request.pdu.payload ≠ [] := by
        intro hpayload
        simp [appends, hblock, hpayload, hm] at happends
      have hrepeat := (hskipped.resolve_left hbelow).2
      rw [(horder block hblock hstarts hlen (Or.inr ⟨hm, hrepeat⟩)).1] at happends
      cases happends
  | nothing hblock hpayload hempty => exact absurd hempty hlen

end Taking

private theorem sessions_request (past : List Event) (request : Request) :
    sessions (past ++ [.request request]) = sessions past := by
  simp [sessions]

private theorem sessions_event (past : List Event) (event : Event)
    (h : event = .connected ∨ event = .closed) : sessions (past ++ [event]) = sessions past + 1 := by
  rcases h with rfl | rfl <;> simp [sessions]

/-- One event of the peer keeps the journal's account. -/
theorem JournalInv.step (h : JournalInv E past outs state j) {mode : EstMode} {key : Bytes}
    {input : Event × Bool} {next : Option CoapReqNode} {out : Option Outcome}
    (hstep : peerStep E mode key state input = some (next, out))
    (horder : ∀ request start, input.1 = .request request →
      startNode E key state input.2 request = some start → Reaches E request start →
      InOrder j start request.pdu) :
    JournalInv E (past ++ [input.1]) (outs ++ [out]) next (noteEvent E key state input j) := by
  obtain ⟨event, room⟩ := input
  cases event with
  | connected =>
    cases hstep
    refine h.quiet rfl rfl ?_ ?_
    · rw [sessions_event past _ (Or.inl rfl), noteEvent, ← h.session]
    · intro node hnode hlen
      have hstate : state = some node := by
        unfold peerLookup at hnode
        split at hnode
        · rw [touch_reset] at hnode
          exact hnode
        · split at hnode
          · cases hnode
            exact absurd rfl hlen
          · cases hnode
      obtain ⟨hholds, hbefore⟩ := h.holds node hstate hlen
      exact ⟨hholds.later .connected, hbefore⟩
  | closed =>
    cases hstep
    refine h.quiet rfl rfl ?_ (by simp)
    rw [sessions_event past _ (Or.inr rfl), noteEvent, ← h.session]
  | request request =>
    obtain ⟨⟨after, made⟩, hrequest, heq⟩ := Option.map_eq_some_iff.mp hstep
    cases heq
    have hsession : (noteEvent E key state (.request request, room) j).session =
        sessions (past ++ [.request request]) := by
      rw [sessions_request, noteEvent, ← h.session]
    rcases peerRequest_cases hrequest with
      ⟨hnone, rfl, hcall⟩ | ⟨start, node, hsome, rfl, hcases⟩
    · refine h.quiet (show (some made).bind Outcome.call = none from hcall) rfl hsession ?_
      intro node hnode hlen
      obtain ⟨hholds, hbefore⟩ := h.holds node hnode hlen
      have htaken : (noteEvent E key next (.request request, room) j).taken = j.taken := by
        simp [noteEvent, hnone]
      rw [htaken]
      exact ⟨hholds.later _, hbefore⟩
    · obtain ⟨hkind, hcases'⟩ := startNode_cases hsome
      have hstart : start.reqBufLen = 0 ∨ state = some start :=
        hcases'.imp_left fun hfresh => by rw [hfresh]; rfl
      have hentry : (⟨j.clock, j.session, request⟩ : Entry) =
          ⟨past.length, sessions past, request⟩ := by rw [h.clock, h.session]
      rcases hcases with ⟨hcall, hsame, haway⟩ | ⟨hreach, mid, hsame, hcur, htaken, hmade⟩
      · refine h.quiet (show (some made).bind Outcome.call = none from hcall) rfl hsession ?_
        intro other hother hlen
        cases hother
        have htaken : (noteEvent E key state (.request request, room) j).taken =
            keptEntries start j.taken := by
          simp only [noteEvent, hsome]
          split
          · rename_i hreach
            exact turnedAway_takenAfter (haway hreach) _
          · rfl
        rw [htaken]
        exact kept_holds h hstart hsame hlen _
      · have htakenAfter : (noteEvent E key state (.request request, room) j).taken =
            takenAfter start j.taken ⟨past.length, sessions past, request⟩ := by
          simp only [noteEvent, hsome, if_pos hreach, hentry]
        have hholds := fun hlen => taken_holds h hstart hkind
          (horder request start rfl hsome hreach) htaken hcur hlen
        cases hmadeCall : made.call with
        | none =>
          refine h.quiet (show (some made).bind Outcome.call = none from hmadeCall) rfl hsession ?_
          intro other hother hlen
          cases hother
          obtain ⟨hcontents, hbefore, -⟩ := hholds (hsame.len ▸ hlen)
          rw [htakenAfter]
          exact ⟨hcontents.of_sameUpload hsame, hbefore⟩
        | some call =>
          obtain ⟨hcsr, hb64, hlen, hended⟩ := hmade call hmadeCall
          obtain ⟨hcontents, hbefore, hdone⟩ := hholds hlen
          obtain ⟨hlast, hafter⟩ := hdone hended
          refine ⟨by simp [noteEvent, h.clock], by simp [h.outputs], hsession, ?_, ?_⟩
          · intro other hother _
            cases hother
            rw [htakenAfter]
            refine ⟨hcontents.of_sameUpload hsame, ?_⟩
            intro t other hpassed
            rcases passedOn_append hpassed with hold | -
            · exact hbefore t other hold
            · exact Or.inr ⟨_, hlast, hended⟩
          · intro t other hpassed
            rcases passedOn_append hpassed with hold | ⟨rfl, hnew⟩
            · exact (h.calls t other hold).later hold.lt _ _
            · obtain rfl : call = other := Option.some.inj (hmadeCall.symm.trans hnew)
              have htransfer := transfer_of_holds hcontents hlast hended
              rw [← hcsr] at htransfer
              refine ⟨hb64, _, by rw [h.outputs]; exact htransfer, ?_⟩
              intro earlier before hearlier hlt place hplace
              obtain ⟨e, he, rfl⟩ := List.mem_map.mp hplace
              rcases passedOn_append hearlier with hold | ⟨rfl, -⟩
              · exact hafter earlier before hold e he
              · exact absurd hlt (lt_irrefl _)

end Invariant

/-- The invariant of the server with the journal of its one peer. -/
structure AssemblyInv (peer : SockAddr) (past : List PeerEvent) (outs : List (Option Outcome))
    (s : CoapCtx × Journal) : Prop where
  table : TableInv s.1 ∧ s.1.transportMode = .coap
  journal : JournalInv E (past.map PeerEvent.event) outs (peerState E s.1 peer) s.2

theorem AssemblyInv.step (peer : SockAddr) (past : List PeerEvent) (outs : List (Option Outcome))
    (s : CoapCtx × Journal) (input : PeerEvent) (next : CoapCtx × Journal) (out : Option Outcome)
    (h : AssemblyInv E peer past outs s) (hok : AssemblyOk E s input ∧ input.peer = peer)
    (hstep : journaled E s input = some (next, out)) :
    AssemblyInv E peer (past ++ [input]) (outs ++ [out]) next := by
  obtain ⟨hdefined, rfl⟩ := hok
  obtain ⟨htable, hnote, hpeer⟩ := tracked_spec h.table hdefined.1 hstep
  refine ⟨htable, ?_⟩
  rw [List.map_append, hnote]
  exact h.journal.step hpeer hdefined.2

section Instances

open LibEst.Coap.ReferenceEnv

def samplePeer : SockAddr := .inet 40000 0x01020304

end Instances

end LibEst.Coap.Assembly
