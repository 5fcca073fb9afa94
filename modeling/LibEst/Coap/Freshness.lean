import LibEst.Coap.Server
import LibEst.Coap.ReferenceEnv

/-! Freshness of responses. A response sent to a peer is cut from the buffer of
its node; the question is which request filled the buffer. The history beside
the server is the list of the events and answers so far, so that a request can
be told to start a new exchange or to go on with one. -/
namespace LibEst.Coap.Freshness

open LibEst.Basic LibEst.Lib.ByteString LibEst.Lib.SlotArray LibEst.Lib.Machine
open LibEst.Coap.ReqTable LibEst.Coap.TableMap LibEst.Coap.TableInvariant
open LibEst.Coap.Handlers LibEst.Coap.HandlerCases LibEst.Coap.Server

abbrev History := List (Event × Option Outcome)

/-- The answer to the latest request. -/
def lastAnswer (past : History) : Option Outcome := past.reverse.findSome? Prod.snd

/-- The latest answer was a block that announced more. -/
def pending (past : History) : Bool :=
  (lastAnswer past).any fun out => out.response.more

/-- A session was opened, and no request has come since. -/
def sessionOpened (past : History) : Bool :=
  (past.reverse.takeWhile fun entry => entry.2.isNone).any fun entry =>
    match entry.1 with
    | .connected => true
    | _ => false

def isDownload : Resource → Bool
  | .crts | .att => true
  | _ => false

/-- A fetch from its beginning after the last block of what was before, or the
first request of a session. -/
def StartsExchange (past : History) (request : Request) : Prop :=
  (isDownload request.resource = true ∧ (∀ block, request.pdu.block2 = some block → block.num = 0) ∧
    pending past = false) ∨ sessionOpened past = true

variable (E : Env)

/-- What the CA certificates, the attributes or the CA amount to at the moment
of a request: the whole response to it. -/
def responseOf (request : Request) : Option Bytes :=
  match uploadKind E request.resource with
  | some kind => kind.response request.answer
  | none => request.answer.content.bind fun text => decodeText E text coapReqNodeBufLenMax

/-- The request begins something new: an exchange, or an upload. -/
def Opens (past : History) (request : Request) : Prop :=
  StartsExchange past request ∨
    ((uploadKind E request.resource).isSome ∧ startsUpload request.pdu = true)

/-- The request works on a node without a response that begins with a zero byte,
and without any response if it starts an exchange. -/
def FreshOk (s : CoapCtx × History) (input : PeerEvent) : Prop :=
  StepDefined E s.1 input ∧
  ∀ request start, input.event = .request request →
    startNode E (peerKey E input.peer) (peerState E s.1 input.peer)
      (peerRoom E s.1 input.peer) request = some start →
    (start.respBufLen ≠ 0 → firstByte start.respBuf ≠ 0) ∧
    (StartsExchange s.2 request → firstByte start.respBuf = 0)

/-- The server with the history of the peer whose events it takes. -/
def recorded : CoapCtx × History → PeerEvent → Option ((CoapCtx × History) × Option Outcome) :=
  tracked (serverStep E) fun _ input out past => past ++ [(input.event, out)]

/-- Event `t` was a request that was answered with a payload. -/
def Answered (past : History) (t : Nat) (request : Request) (payload : Bytes) : Prop :=
  ∃ out, past[t]? = some (.request request, some out) ∧ out.response.payload = payload ∧ payload ≠ []

/-- From `u` on, up to before `t`, there were only requests for one resource that
went on with what `u` was about. -/
def GoesOn (past : History) (resource : Resource) (u t : Nat) : Prop :=
  ∀ v, u < v → v < t → ∃ request out, past[v]? = some (.request request, out) ∧
    request.resource = resource ∧ ¬ Opens E (past.take v) request

/-- The law, for a run with its history: every payload is a slice of the response
to the request at its source; the source of a request that starts an exchange is
that request; and the payloads of one exchange have one source. -/
def Sourced (past : History) (source : Nat → Nat) : Prop :=
  ∀ t request payload, Answered past t request payload →
    (∃ first out data, past[source t]? = some (.request first, out) ∧ source t ≤ t ∧
      first.resource = request.resource ∧ responseOf E first = some data ∧ payload <:+: data) ∧
    (StartsExchange (past.take t) request → source t = t) ∧
    ∀ u other otherPayload, u < t → Answered past u other otherPayload →
      GoesOn E past other.resource u (t + 1) → source u = source t

section Requests

variable {E} {key : Bytes} {state : Option CoapReqNode} {room : Bool} {request : Request}

private theorem admit_payload {exit : Outcome}
    (h : (handlerOf E request.resource).admission request = some exit) :
    exit.response.payload = [] := by
  have hupload : admitUpload request = some exit → exit.response.payload = [] := by
    intro h
    unfold admitUpload at h
    split at h
    · cases h
      rfl
    · split at h
      · cases h
        rfl
      · split at h
        · cases h
          rfl
        · cases h
  have hdownload : ∀ kind, admitDownload kind request = some exit → exit.response.payload = [] := by
    intro kind h
    unfold admitDownload at h
    split at h
    · cases h
      rfl
    · cases h
  cases hres : request.resource <;> rw [hres] at h
  case sen | sren | skg => exact hupload h
  case crts | att => exact hdownload _ h

theorem sendStored_payload (code : Nat) (codeLast : Bool) (node : CoapReqNode) (pdu : Pdu)
    (call : Option EnrollCall) (notices : List EndpointNotice) :
    (sendStored E code codeLast node pdu call notices).response.payload <:+:
      readFirst node.respBuf node.respBufLen :=
  E.blocked_slice _ _

theorem storeResponse_stored (node : CoapReqNode) (data : Bytes) :
    readFirst (storeResponse node data).respBuf (storeResponse node data).respBufLen = data := by
  have hwrite := readFirst_writeAt node.respBuf 0 data
  rw [readFirst_zero, List.nil_append, Nat.zero_add] at hwrite
  exact hwrite

/-- What a request does to the response buffer, from the node it starts with. -/
inductive Responded (E : Env) (request : Request) (start node : CoapReqNode) (payload : Bytes) : Prop
    where
  | stored (hresp : firstByte start.respBuf ≠ 0) (hnode : node = start)
      (hslice : payload <:+: readFirst start.respBuf start.respBufLen)
  | withheld (hresp : firstByte start.respBuf = 0) (hlen : node.respBufLen = start.respBufLen)
      (hpayload : payload = [])
  | filled (hresp : firstByte start.respBuf = 0) (data : Bytes)
      (hdata : responseOf E request = some data)
      (hnode : readFirst node.respBuf node.respBufLen = data) (hcur : node.curReq = start.curReq)
      (hslice : payload <:+: data)

private theorem download_responded {mode : EstMode} {found node : CoapReqNode} {out : Outcome}
    (hkind : uploadKind E request.resource = none)
    (h : (handlerOf E request.resource).body mode request found = some (node, out)) :
    Responded E request found node out.response.payload := by
  have hbody : ∀ kind, downloadBody E mode kind request found = some (node, out) →
      Responded E request found node out.response.payload := by
    intro kind h
    rcases downloadBody_cases h with
      ⟨hresp, rfl, rfl⟩ | ⟨hresp, rfl, code, notices, rfl⟩ | ⟨hresp, text, data, htext, hdata, rfl, rfl⟩
    · exact .stored hresp rfl (sendStored_payload _ _ _ _ _ _)
    · exact .withheld hresp rfl rfl
    · refine .filled hresp data ?_ (storeResponse_stored _ _) rfl ?_
      · simp [responseOf, hkind, htext, hdata]
      · have hslice := sendStored_payload (E := E) 205 kind.codeLast (storeResponse found data)
          request.pdu none [.reqStart]
        rw [storeResponse_stored] at hslice
        exact hslice
  cases hres : request.resource <;> rw [hres] at h hkind
  case sen | sren | skg => cases hkind
  case crts | att => exact hbody _ h

private theorem upload_responded {mode : EstMode} {kind : UploadKind} {found node : CoapReqNode}
    {out : Outcome} (hkind : uploadKind E request.resource = some kind)
    (h : uploadBody E mode kind request found = some (node, out)) :
    Responded E request (restartUpload kind request.pdu found) node out.response.payload := by
  obtain ⟨start, rfl, hcases⟩ := uploadBody_cases h
  rcases hcases with ⟨hresp, rfl, rfl⟩ | ⟨hresp, rfl, -, code, notices, rfl⟩ |
    ⟨hresp, -, hsame, -, -, -, hpayload, -⟩ | ⟨hresp, -, mid, notices, hsame, -, -, hfinish⟩
  · exact .stored hresp rfl (sendStored_payload _ _ _ _ _ _)
  · exact .withheld hresp rfl rfl
  · exact .withheld hresp (by rw [hsame]) hpayload
  · rcases finishUpload_cases hfinish with
      ⟨rfl, code, rfl⟩ | ⟨-, call, -, -, -, ⟨rfl, code, rfl⟩ | ⟨data, hdata, rfl, rfl⟩⟩
    · exact .withheld hresp (by rw [hsame]) rfl
    · exact .withheld hresp (by rw [hsame]) rfl
    · refine .filled hresp data ?_ (storeResponse_stored _ _) ?_ ?_
      · simp [responseOf, hkind, hdata]
      · rw [hsame]
        rfl
      · have hslice := sendStored_payload (E := E) 204 false (storeResponse mid data) request.pdu
          (some call) notices
        rw [storeResponse_stored] at hslice
        exact hslice

/-- A request, seen through the response buffer of its peer. -/
theorem peerRequest_responded {mode : EstMode} {next : Option CoapReqNode} {out : Outcome}
    (h : peerRequest E mode key state room request = some (next, out)) :
    (startNode E key state room request = none ∧ next = state ∧ out.response.payload = []) ∨
    ∃ start node, startNode E key state room request = some start ∧ next = some node ∧
      Responded E request start node out.response.payload := by
  unfold peerRequest at h
  simp only at h
  split at h
  · rename_i exit hadmit
    cases h
    exact Or.inl ⟨by simp [startNode, hadmit], rfl, admit_payload hadmit⟩
  · rename_i hadmit
    split at h
    · rename_i hlookup
      cases h
      exact Or.inl ⟨by simp [startNode, hadmit, hlookup], rfl, rfl⟩
    · rename_i found hlookup
      obtain ⟨⟨node, out'⟩, hbody, heq⟩ := Option.map_eq_some_iff.mp h
      cases heq
      cases hkind : uploadKind E request.resource with
      | none =>
        exact Or.inr ⟨found, node, by simp [startNode, hadmit, hlookup, hkind], rfl,
          download_responded hkind hbody⟩
      | some kind =>
        rw [body_upload hkind] at hbody
        exact Or.inr ⟨restartUpload kind request.pdu found, node,
          by simp [startNode, hadmit, hlookup, hkind], rfl, upload_responded hkind hbody⟩

/-- A request of the type the node is in use for, that opens nothing, works on
the node as it is. -/
theorem startNode_goes_on {past : History} {node start : CoapReqNode}
    (hcur : node.curReq = (handlerOf E request.resource).reqType) (hopens : ¬ Opens E past request)
    (h : startNode E key (some node) room request = some start) : start = node := by
  have htouch : touch node (handlerOf E request.resource).reqType = node := by
    unfold touch
    rw [if_neg]
    exact fun hother => hother.1 hcur
  unfold startNode at h
  split at h
  · cases h
  · simp only [peerLookup, Option.map_some, htouch, Option.some.injEq] at h
    rw [← h]
    split
    · rename_i kind hkind
      unfold restartUpload
      rw [if_neg]
      exact fun hrestart => hopens (Or.inr ⟨by rw [hkind]; rfl, hrestart.2⟩)
    · rfl

end Requests

section Histories

variable {E} {past : History} {entry : Event × Option Outcome} {source : Nat → Nat}

theorem Answered.lt {t : Nat} {request : Request} {payload : Bytes}
    (h : Answered past t request payload) : t < past.length := by
  obtain ⟨out, hout, -⟩ := h
  exact (List.getElem?_eq_some_iff.mp hout).1

private theorem getElem?_before {t : Nat} (ht : t < past.length) :
    (past ++ [entry])[t]? = past[t]? := List.getElem?_append_left ht

theorem Answered.append {t : Nat} {request : Request} {payload : Bytes}
    (h : Answered (past ++ [entry]) t request payload) :
    Answered past t request payload ∨
      (t = past.length ∧ payload ≠ [] ∧ ∃ out, entry = (.request request, some out) ∧
        out.response.payload = payload) := by
  have hlt := h.lt
  rw [List.length_append, List.length_singleton] at hlt
  obtain ⟨out, hout, hpayload, hne⟩ := h
  by_cases ht : t < past.length
  · rw [getElem?_before ht] at hout
    exact Or.inl ⟨out, hout, hpayload, hne⟩
  · obtain rfl : t = past.length := by omega
    rw [List.getElem?_concat_length] at hout
    exact Or.inr ⟨rfl, hne, out, Option.some.inj hout, hpayload⟩

theorem GoesOn.before {resource : Resource} {u t : Nat} (ht : t ≤ past.length)
    (h : GoesOn E (past ++ [entry]) resource u t) : GoesOn E past resource u t := by
  intro v huv hvt
  have hv : v < past.length := by omega
  obtain ⟨request, out, hentry, hresource, hopens⟩ := h v huv hvt
  rw [getElem?_before hv] at hentry
  rw [List.take_append_of_le_length hv.le] at hopens
  exact ⟨request, out, hentry, hresource, hopens⟩

/-- What was going on before the last event, and what that event then was. -/
theorem GoesOn.last {resource : Resource} {u : Nat} (hu : u < past.length)
    (h : GoesOn E (past ++ [entry]) resource u (past.length + 1)) :
    GoesOn E past resource u past.length ∧
      ∃ request out, entry = (.request request, out) ∧ request.resource = resource ∧
        ¬ Opens E past request := by
  refine ⟨GoesOn.before le_rfl fun v huv hv => h v huv (by omega), ?_⟩
  obtain ⟨request, out, hentry, hresource, hopens⟩ := h past.length hu (Nat.lt_succ_self _)
  rw [List.getElem?_concat_length] at hentry
  rw [List.take_left] at hopens
  exact ⟨request, out, Option.some.inj hentry, hresource, hopens⟩

/-- The response in the buffer is that of request `s`. -/
def FilledBy (E : Env) (past : History) (node : CoapReqNode) (s : Nat) : Prop :=
  ∃ first out, past[s]? = some (.request first, out) ∧
    (handlerOf E first.resource).reqType = node.curReq ∧
    responseOf E first = some (readFirst node.respBuf node.respBufLen)

theorem FilledBy.later {node : CoapReqNode} {s : Nat} (h : FilledBy E past node s) :
    FilledBy E (past ++ [entry]) node s := by
  obtain ⟨first, out, hentry, hkind, hresponse⟩ := h
  have hs := (List.getElem?_eq_some_iff.mp hentry).1
  exact ⟨first, out, by rw [getElem?_before hs]; exact hentry, hkind, hresponse⟩

theorem FilledBy.le {node : CoapReqNode} {s : Nat} (h : FilledBy E (past ++ [entry]) node s) :
    s ≤ past.length := by
  obtain ⟨first, out, hentry, -⟩ := h
  have hs := (List.getElem?_eq_some_iff.mp hentry).1
  rw [List.length_append, List.length_singleton] at hs
  omega

/-- One more event: the law for its own answer is all that is to be shown. -/
theorem Sourced.append (h : Sourced E past source) (s : Nat)
    (hnew : ∀ request payload, Answered (past ++ [entry]) past.length request payload →
      (∃ first out data, (past ++ [entry])[s]? = some (.request first, out) ∧ s ≤ past.length ∧
        first.resource = request.resource ∧ responseOf E first = some data ∧ payload <:+: data) ∧
      (StartsExchange past request → s = past.length) ∧
      ∀ u other otherPayload, Answered past u other otherPayload →
        GoesOn E (past ++ [entry]) other.resource u (past.length + 1) → source u = s) :
    Sourced E (past ++ [entry]) (Function.update source past.length s) := by
  intro t request payload hanswered
  have hearlier : ∀ u other otherPayload, u < past.length →
      Answered (past ++ [entry]) u other otherPayload → Answered past u other otherPayload := by
    intro u other otherPayload hu hother
    rcases hother.append with hbefore | ⟨rfl, -⟩
    · exact hbefore
    · exact absurd hu (lt_irrefl _)
  rcases hanswered.append with hbefore | ⟨rfl, -, -⟩
  · have ht := hbefore.lt
    obtain ⟨⟨first, out, data, hfirst, hle, hslice⟩, hstarts, hone⟩ := h t request payload hbefore
    rw [Function.update_of_ne ht.ne]
    refine ⟨⟨first, out, data, ?_, hle, hslice⟩, ?_, ?_⟩
    · rw [getElem?_before (by omega)]
      exact hfirst
    · rw [List.take_append_of_le_length ht.le]
      exact hstarts
    · intro u other otherPayload hu hother hgoes
      rw [Function.update_of_ne (by omega)]
      exact hone u other otherPayload hu (hearlier u other otherPayload (by omega) hother)
        (hgoes.before (by omega))
  · obtain ⟨hfirst, hstarts, hone⟩ := hnew request payload hanswered
    rw [Function.update_self]
    refine ⟨hfirst, ?_, ?_⟩
    · rw [List.take_left]
      exact hstarts
    · intro u other otherPayload hu hother hgoes
      rw [Function.update_of_ne hu.ne]
      exact hone u other otherPayload (hearlier u other otherPayload hu hother) hgoes

end Histories

section Invariant

/-- Beside the sources of all answers, `s` is the source of what the buffer of
the peer's node holds, and of every answer whose exchange is still going on. -/
structure FreshInv (past : History) (state : Option CoapReqNode) (source : Nat → Nat) (s : Nat) :
    Prop where
  sourced : Sourced E past source
  filled : ∀ node, state = some node → node.respBufLen ≠ 0 → FilledBy E past node s
  current : ∀ u request payload, Answered past u request payload →
    GoesOn E past request.resource u past.length →
    source u = s ∧ ∃ node, state = some node ∧ node.respBufLen ≠ 0 ∧
      node.curReq = (handlerOf E request.resource).reqType

variable {E} {past : History} {state next : Option CoapReqNode} {source : Nat → Nat} {s : Nat}

/-- An event that is no request ends whatever was going on. -/
theorem FreshInv.session (h : FreshInv E past state source s) {event : Event}
    (hevent : ∀ request, event ≠ .request request)
    (hnext : ∀ node, next = some node → node.respBufLen ≠ 0 → state = some node) :
    FreshInv E (past ++ [(event, none)]) next (Function.update source past.length s) s where
  sourced := by
    apply h.sourced.append s
    intro request payload hanswered
    rcases hanswered.append with hbefore | ⟨-, -, out, hentry, -⟩
    · exact absurd hbefore.lt (lt_irrefl _)
    · cases hentry
  filled node hnode hlen := (h.filled node (hnext node hnode hlen) hlen).later
  current u request payload hanswered hgoes := by
    rcases hanswered.append with hbefore | ⟨-, -, out, hentry, -⟩
    · rw [List.length_append, List.length_singleton] at hgoes
      obtain ⟨-, other, out, hentry, -⟩ := hgoes.last hbefore.lt
      cases hentry
      exact absurd rfl (hevent other)
    · cases hentry

/-- A request that is answered without a payload and leaves the peer alone. -/
theorem FreshInv.unanswered (h : FreshInv E past state source s) {request : Request} {out : Outcome}
    (hpayload : out.response.payload = []) :
    FreshInv E (past ++ [(.request request, some out)]) state
      (Function.update source past.length s) s where
  sourced := by
    apply h.sourced.append s
    intro other payload hanswered
    rcases hanswered.append with hbefore | ⟨-, hne, out', hentry, hslice⟩
    · exact absurd hbefore.lt (lt_irrefl _)
    · cases hentry
      exact absurd (hslice.symm.trans hpayload) hne
  filled node hnode hlen := (h.filled node hnode hlen).later
  current u other payload hanswered hgoes := by
    rcases hanswered.append with hbefore | ⟨-, hne, out', hentry, hslice⟩
    · rw [List.length_append, List.length_singleton] at hgoes
      rw [Function.update_of_ne hbefore.lt.ne]
      exact h.current u other payload hbefore (hgoes.last hbefore.lt).1
    · cases hentry
      exact absurd (hslice.symm.trans hpayload) hne

variable {key : Bytes} {room : Bool} {request : Request} {start node : CoapReqNode}

/-- A request that goes on with an earlier one works on the node of that one. -/
theorem FreshInv.goes_on (h : FreshInv E past state source s)
    (hstart : startNode E key state room request = some start) {out : Option Outcome} {u : Nat}
    {other : Request} {payload : Bytes} (hanswered : Answered past u other payload)
    (hgoes : GoesOn E (past ++ [(.request request, out)]) other.resource u (past.length + 1)) :
    source u = s ∧ start.respBufLen ≠ 0 := by
  obtain ⟨hbefore, now, out', hentry, hresource, hopens⟩ := hgoes.last hanswered.lt
  cases hentry
  obtain ⟨hsource, node, rfl, hlen, hcur⟩ := h.current u other payload hanswered hbefore
  rw [← hresource] at hcur
  rw [startNode_goes_on hcur hopens hstart]
  exact ⟨hsource, hlen⟩

/-- A request that starts from a node without a response: nothing goes on with
it, and what it stores is its own. -/
theorem FreshInv.emptied (h : FreshInv E past state source s)
    (hstart : startNode E key state room request = some start) (hlen : start.respBufLen = 0)
    {out : Outcome}
    (hfilled : node.respBufLen ≠ 0 →
      FilledBy E (past ++ [(.request request, some out)]) node past.length)
    (hcur : node.respBufLen ≠ 0 → node.curReq = (handlerOf E request.resource).reqType)
    (hslice : out.response.payload <:+: readFirst node.respBuf node.respBufLen) :
    FreshInv E (past ++ [(.request request, some out)]) (some node)
      (Function.update source past.length past.length) past.length := by
  have hnot : ∀ u other payload, Answered past u other payload →
      ¬ GoesOn E (past ++ [(.request request, some out)]) other.resource u (past.length + 1) :=
    fun u other payload hanswered hgoes => (h.goes_on hstart hanswered hgoes).2 hlen
  have hstored : out.response.payload ≠ [] → node.respBufLen ≠ 0 := by
    intro hne hzero
    rw [hzero, readFirst_zero, List.infix_nil] at hslice
    exact hne hslice
  refine ⟨?_, ?_, ?_⟩
  · apply h.sourced.append past.length
    intro other payload hanswered
    rcases hanswered.append with hbefore | ⟨-, hne, out', hentry, rfl⟩
    · exact absurd hbefore.lt (lt_irrefl _)
    · cases hentry
      obtain ⟨first, answer, hfirst, -, hresponse⟩ := hfilled (hstored hne)
      refine ⟨⟨first, answer, _, hfirst, le_rfl, ?_, hresponse, hslice⟩, fun _ => rfl, ?_⟩
      · rw [List.getElem?_concat_length, Option.some.injEq] at hfirst
        cases hfirst
        rfl
      · exact fun u other payload hanswered hgoes => absurd hgoes (hnot u other payload hanswered)
  · intro other hother hne
    cases hother
    exact hfilled hne
  · intro u other payload hanswered hgoes
    rw [List.length_append, List.length_singleton] at hgoes
    rcases hanswered.append with hbefore | ⟨rfl, hne, out', hentry, rfl⟩
    · exact absurd hgoes (hnot u other payload hbefore)
    · cases hentry
      exact ⟨Function.update_self _ _ _, node, rfl, hstored hne, hcur (hstored hne)⟩

/-- A request answered from the buffer as it was. -/
theorem FreshInv.stored (h : FreshInv E past (some start) source s)
    (hcur : start.curReq = (handlerOf E request.resource).reqType)
    (hstarts : ¬ StartsExchange past request) {out : Outcome}
    (hslice : out.response.payload <:+: readFirst start.respBuf start.respBufLen) :
    FreshInv E (past ++ [(.request request, some out)]) (some start)
      (Function.update source past.length s) s := by
  have hstored : out.response.payload ≠ [] → start.respBufLen ≠ 0 := by
    intro hne hzero
    rw [hzero, readFirst_zero, List.infix_nil] at hslice
    exact hne hslice
  refine ⟨?_, ?_, ?_⟩
  · apply h.sourced.append s
    intro other payload hanswered
    rcases hanswered.append with hbefore | ⟨-, hne, out', hentry, rfl⟩
    · exact absurd hbefore.lt (lt_irrefl _)
    · cases hentry
      have hfilled : FilledBy E (past ++ [(.request request, some out)]) start s :=
        (h.filled start rfl (hstored hne)).later
      have hle := hfilled.le
      obtain ⟨first, answer, hfirst, hkind, hresponse⟩ := hfilled
      refine ⟨⟨first, answer, _, hfirst, hle, reqType_injective (hkind.trans hcur), hresponse,
        hslice⟩, fun hnew => absurd hnew hstarts, ?_⟩
      intro u other payload hanswered hgoes
      exact (h.current u other payload hanswered (hgoes.last hanswered.lt).1).1
  · intro other hother hne
    cases hother
    exact (h.filled start rfl hne).later
  · intro u other payload hanswered hgoes
    rw [List.length_append, List.length_singleton] at hgoes
    rcases hanswered.append with hbefore | ⟨rfl, hne, out', hentry, rfl⟩
    · rw [Function.update_of_ne hbefore.lt.ne]
      exact h.current u other payload hbefore (hgoes.last hbefore.lt).1
    · cases hentry
      exact ⟨Function.update_self _ _ _, start, rfl, hstored hne, hcur⟩

/-- One event of the peer keeps the account of the sources. -/
theorem FreshInv.step (h : FreshInv E past state source s) {mode : EstMode} {event : Event}
    {out : Option Outcome} (hstep : peerStep E mode key state (event, room) = some (next, out))
    (hok : ∀ request start, event = .request request →
      startNode E key state room request = some start →
      (start.respBufLen ≠ 0 → firstByte start.respBuf ≠ 0) ∧
      (StartsExchange past request → firstByte start.respBuf = 0)) :
    ∃ source' s', FreshInv E (past ++ [(event, out)]) next source' s' := by
  cases event with
  | connected =>
    cases hstep
    refine ⟨_, s, h.session (by simp) ?_⟩
    intro node hnode hlen
    unfold peerLookup at hnode
    split at hnode
    · rw [touch_reset] at hnode
      exact hnode
    · split at hnode
      · cases hnode
        exact absurd rfl hlen
      · cases hnode
  | closed =>
    cases hstep
    exact ⟨_, s, h.session (by simp) (by simp)⟩
  | request request =>
    obtain ⟨⟨after, made⟩, hrequest, heq⟩ := Option.map_eq_some_iff.mp hstep
    cases heq
    rcases peerRequest_responded hrequest with
      ⟨-, rfl, hpayload⟩ | ⟨start, node, hstart, rfl, hresponded⟩
    · exact ⟨_, s, h.unanswered hpayload⟩
    · obtain ⟨hzero, hstarts⟩ := hok request start rfl hstart
      obtain ⟨hkind, hcases⟩ := startNode_cases hstart
      cases hresponded with
      | stored hresp hnode hslice =>
        subst hnode
        have hstate : state = some node := by
          rcases hcases with hfresh | hstate
          · rw [hfresh] at hresp
            exact absurd rfl hresp
          · exact hstate
        rw [hstate] at h
        exact ⟨_, s, h.stored hkind (fun hnew => hresp (hstarts hnew)) hslice⟩
      | withheld hresp hlen hpayload =>
        have hempty : start.respBufLen = 0 := by
          by_contra hne
          exact hzero hne hresp
        refine ⟨_, past.length, h.emptied hstart hempty ?_ ?_ ?_⟩
        · exact fun hne => absurd (hlen.trans hempty) hne
        · exact fun hne => absurd (hlen.trans hempty) hne
        · rw [hpayload]
          exact List.nil_infix
      | filled hresp data hdata hnode hcur hslice =>
        have hempty : start.respBufLen = 0 := by
          by_contra hne
          exact hzero hne hresp
        refine ⟨_, past.length, h.emptied hstart hempty ?_ ?_ ?_⟩
        · intro _
          refine ⟨request, some made, List.getElem?_concat_length, (hcur.trans hkind).symm, ?_⟩
          rw [hnode]
          exact hdata
        · exact fun _ => hcur.trans hkind
        · rw [hnode]
          exact hslice

end Invariant

/-- The invariant of the server with the history of its one peer. -/
structure RecordInv (peer : SockAddr) (past : List PeerEvent) (outs : List (Option Outcome))
    (s : CoapCtx × History) : Prop where
  table : TableInv s.1 ∧ s.1.transportMode = .coap
  outputs : outs.length = past.length
  history : s.2 = (past.map PeerEvent.event).zip outs
  fresh : ∃ source t, FreshInv E s.2 (peerState E s.1 peer) source t

theorem RecordInv.step (peer : SockAddr) (past : List PeerEvent) (outs : List (Option Outcome))
    (s : CoapCtx × History) (input : PeerEvent) (next : CoapCtx × History) (out : Option Outcome)
    (h : RecordInv E peer past outs s) (hok : FreshOk E s input ∧ input.peer = peer)
    (hstep : recorded E s input = some (next, out)) :
    RecordInv E peer (past ++ [input]) (outs ++ [out]) next := by
  obtain ⟨hdefined, rfl⟩ := hok
  obtain ⟨htable, hnote, hpeer⟩ := tracked_spec h.table hdefined.1 hstep
  refine ⟨htable, by simp [h.outputs], ?_, ?_⟩
  · rw [hnote, h.history, List.map_append, List.zip_append (by simp [h.outputs])]
    rfl
  · obtain ⟨source, t, hfresh⟩ := h.fresh
    rw [hnote]
    exact hfresh.step hpeer hdefined.2

section Instances

open LibEst.Coap.ReferenceEnv

def fetchPeer : SockAddr := .inet 40000 0x01020304

/-- A fetch of the CA certificates, while these are the text. -/
def fetchCrts (text : String) : Request where
  resource := .crts
  pdu := { contentFormat := [], accept := [], payload := [], block1 := none, block2 := none }
  tls := true
  peerCert := true
  answer := { rc := .none, content := some (ascii text), key := [], caCalled := false }

end Instances

end LibEst.Coap.Freshness
