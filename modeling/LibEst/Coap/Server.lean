import LibEst.Lib.Machine
import LibEst.Coap.HandlerCases
import LibEst.Coap.TableInvariant

/-! The CoAP server as a machine over the events of all peers, and the same
server reduced to one peer: a node or none, and for each event whether the table
had room. Where keys do not clash, the server restricted to a peer is the
reduced one. -/
namespace LibEst.Coap.Server

open LibEst.Basic LibEst.Lib.ByteString LibEst.Lib.SlotArray LibEst.Lib.Machine
open LibEst.Coap.ReqTable LibEst.Coap.TableMap LibEst.Coap.TableInvariant
open LibEst.Coap.Handlers LibEst.Coap.HandlerCases

inductive Event where
  | connected
  | closed
  | request (request : Request)

structure PeerEvent where
  peer : SockAddr
  event : Event

variable (E : Env)

/-- A request from a peer: the exits before the lookup, the lookup, the body. -/
def handleRequest (ctx : CoapCtx) (peer : SockAddr) (request : Request) :
    Option (CoapCtx × Outcome) :=
  let handler := handlerOf E request.resource
  match handler.admission request with
  | some out => some (ctx, out)
  | none =>
      match getCoapReq E.toPlatform ctx peer handler.reqType with
      | none => none
      | some (ctx, none) => some (ctx, errorExit 500 none [])
      | some (ctx, some i) =>
          match ctx.coapReqArray[i]? with
          | none => none
          | some node =>
              (handler.body ctx.estMode request node).map fun (node, out) =>
                (storeNode ctx i node, out)

def serverStep (ctx : CoapCtx) (input : PeerEvent) : Option (CoapCtx × Option Outcome) :=
  match input.event with
  | .connected => (dtlsConnected E.toPlatform ctx input.peer).map fun ctx => (ctx, none)
  | .closed => (dtlsClosed E.toPlatform ctx input.peer).map fun ctx => (ctx, none)
  | .request request =>
      (handleRequest E ctx input.peer request).map fun (ctx, out) => (ctx, some out)

/-- The lookup, for one peer: `room` says whether a free node could be had. -/
def peerLookup (key : Bytes) (state : Option CoapReqNode) (room : Bool) (req : EstCoapReq) :
    Option CoapReqNode :=
  match state with
  | some node => some (touch node req)
  | none => if room then some (fresh key req) else none

def peerRequest (mode : EstMode) (key : Bytes) (state : Option CoapReqNode) (room : Bool)
    (request : Request) : Option (Option CoapReqNode × Outcome) :=
  let handler := handlerOf E request.resource
  match handler.admission request with
  | some out => some (state, out)
  | none =>
      match peerLookup key state room handler.reqType with
      | none => some (state, errorExit 500 none [])
      | some node =>
          (handler.body mode request node).map fun (node, out) => (some node, out)

/-- The reduced server. A close leaves no node, whether or not there was one. -/
def peerStep (mode : EstMode) (key : Bytes) (state : Option CoapReqNode) (input : Event × Bool) :
    Option (Option CoapReqNode × Option Outcome) :=
  match input.1 with
  | .connected => some (peerLookup key state input.2 .reset, none)
  | .closed => some (none, none)
  | .request request =>
      (peerRequest E mode key state input.2 request).map fun (state, out) => (state, some out)

theorem peerStep_request {mode : EstMode} {key : Bytes} {state next : Option CoapReqNode}
    {request : Request} {out : Outcome} {room : Bool}
    (h : peerRequest E mode key state room request = some (next, out)) :
    peerStep E mode key state (.request request, room) = some (next, some out) := by
  simp only [peerStep, h, Option.map_some]

/-- The handler's body is defined on the node that the lookup hands out. -/
def PeerDefined (key : Bytes) (state : Option CoapReqNode) (input : Event × Bool) : Prop :=
  match input.1 with
  | .request request =>
      (handlerOf E request.resource).admission request = none →
      ∀ node, peerLookup key state input.2 (handlerOf E request.resource).reqType = some node →
        BodyDefined E request.resource request node
  | _ => True

/-- A free node can be had. -/
def room (ctx : CoapCtx) : Bool :=
  decide ((PeerMap.ofCtx ctx).inUse < (PeerMap.ofCtx ctx).capacity)

/-- What the table holds for a peer, none for a peer without an address text. -/
def peerState (ctx : CoapCtx) (peer : SockAddr) : Option CoapReqNode :=
  (searchKey E.toPlatform peer).bind (PeerMap.ofCtx ctx).entry

def peerKey (peer : SockAddr) : Bytes := (searchKey E.toPlatform peer).getD []

def peerRoom (ctx : CoapCtx) (peer : SockAddr) : Bool :=
  (searchKey E.toPlatform peer).isSome && room ctx

/-- The event runs into no undefined behaviour: uploads fit. -/
def StepDefined (ctx : CoapCtx) (input : PeerEvent) : Prop :=
  PeerDefined E (peerKey E input.peer) (peerState E ctx input.peer)
    (input.event, peerRoom E ctx input.peer)

section Simulation

private theorem get_eq_lookup (m : PeerMap) (key : Bytes) (req : EstCoapReq) :
    (m.get key req).2 = peerLookup key (m.entry key) (decide (m.inUse < m.capacity)) req ∧
      (m.get key req).1.entry = Function.update m.entry key (m.get key req).2 := by
  cases hentry : m.entry key with
  | some node => simp [PeerMap.get, peerLookup, hentry, PeerMap.put]
  | none =>
    by_cases hroom : m.inUse < m.capacity
    · simp [PeerMap.get, peerLookup, hentry, hroom, PeerMap.put]
    · have hget : m.get key req = (m, none) := by simp [PeerMap.get, hentry, hroom]
      rw [hget]
      refine ⟨by simp [peerLookup, hroom], ?_⟩
      rw [← hentry, Function.update_eq_self]

variable {E} {ctx : CoapCtx} {peer : SockAddr} {key : Bytes}

/-- The lookup in the table is the reduced lookup, and touches no other peer. -/
theorem getCoapReq_lookup (h : TableInv ctx) (hmode : ctx.transportMode = .coap)
    (hsearch : searchKey E.toPlatform peer = some key) (req : EstCoapReq) :
    ∃ next pointer, getCoapReq E.toPlatform ctx peer req = some (next, pointer) ∧
      TableInv next ∧ SameConfig ctx next ∧
      (PeerMap.ofCtx next).entry = Function.update (PeerMap.ofCtx ctx).entry key
        (peerLookup key ((PeerMap.ofCtx ctx).entry key) (room ctx) req) ∧
      (pointer = none → peerLookup key ((PeerMap.ofCtx ctx).entry key) (room ctx) req = none) ∧
      ∀ i, pointer = some i → ∃ node, next.coapReqArray[i]? = some node ∧ node.key = key ∧
        peerLookup key ((PeerMap.ofCtx ctx).entry key) (room ctx) req = some node := by
  obtain ⟨hlookup, hentry⟩ := get_eq_lookup (PeerMap.ofCtx ctx) key req
  rcases getCoapReq_cases E.toPlatform h hmode hsearch req with
    ⟨hget, hmap⟩ | ⟨next, i, node, hget, hinv, hsame, hnode, hkey, hmap⟩
  · rw [hmap] at hlookup hentry
    refine ⟨ctx, none, hget, h, rfl, ?_, fun _ => hlookup.symm, by simp⟩
    rw [hlookup] at hentry
    exact hentry
  · rw [hmap] at hlookup hentry
    refine ⟨next, some i, hget, hinv, hsame, ?_, by simp, ?_⟩
    · rw [hlookup] at hentry
      exact hentry
    · rintro j hj
      cases hj
      exact ⟨node, hnode, hkey, hlookup.symm⟩

theorem dtlsConnected_spec (h : TableInv ctx) (hmode : ctx.transportMode = .coap)
    (hsearch : searchKey E.toPlatform peer = some key) :
    ∃ next, dtlsConnected E.toPlatform ctx peer = some next ∧ TableInv next ∧ SameConfig ctx next ∧
      (PeerMap.ofCtx next).entry = Function.update (PeerMap.ofCtx ctx).entry key
        (peerLookup key ((PeerMap.ofCtx ctx).entry key) (room ctx) .reset) := by
  obtain ⟨next, pointer, hget, hinv, hsame, hentry, -⟩ := getCoapReq_lookup h hmode hsearch .reset
  exact ⟨next, by simp [dtlsConnected, hget], hinv, hsame, hentry⟩

theorem dtlsClosed_spec (h : TableInv ctx) (hmode : ctx.transportMode = .coap)
    (hsearch : searchKey E.toPlatform peer = some key) :
    ∃ next, dtlsClosed E.toPlatform ctx peer = some next ∧ TableInv next ∧ SameConfig ctx next ∧
      (PeerMap.ofCtx next).entry = Function.update (PeerMap.ofCtx ctx).entry key none := by
  obtain ⟨mid, pointer, hget, hinv, hsame, hentry, hnull, hsome⟩ :=
    getCoapReq_lookup h hmode hsearch .reset
  cases pointer with
  | none =>
    refine ⟨mid, by simp [dtlsClosed, hget, removeCoapReq], hinv, hsame, ?_⟩
    rw [hentry, hnull rfl]
  | some i =>
    obtain ⟨node, hnode, rfl, -⟩ := hsome i rfl
    obtain ⟨next, hremove, hinv', hsame', hmap⟩ :=
      removeCoapReq_spec E.toPlatform hinv hnode (searchKey_ne_nil _ hsearch)
    refine ⟨next, by simp [dtlsClosed, hget, hremove], hinv', hsame.trans hsame', ?_⟩
    rw [hmap, PeerMap.remove]
    split
    · simp only
      rw [hentry, Function.update_idem]
    · rename_i habsent
      rw [hentry, Function.update_self] at habsent
      rw [hentry, habsent]

theorem handleRequest_spec (h : TableInv ctx) (hmode : ctx.transportMode = .coap)
    (hsearch : searchKey E.toPlatform peer = some key) {request : Request}
    (hdefined : PeerDefined E key ((PeerMap.ofCtx ctx).entry key) (.request request, room ctx)) :
    ∃ next out state, handleRequest E ctx peer request = some (next, out) ∧ TableInv next ∧
      SameConfig ctx next ∧
      peerRequest E ctx.estMode key ((PeerMap.ofCtx ctx).entry key) (room ctx) request =
        some (state, out) ∧
      (PeerMap.ofCtx next).entry = Function.update (PeerMap.ofCtx ctx).entry key state := by
  cases hadmit : (handlerOf E request.resource).admission request with
  | some out =>
    refine ⟨ctx, out, (PeerMap.ofCtx ctx).entry key, by simp [handleRequest, hadmit], h, rfl,
      by simp [peerRequest, hadmit], ?_⟩
    rw [Function.update_eq_self]
  | none =>
    obtain ⟨mid, pointer, hget, hinv, hsame, hentry, hnull, hsome⟩ :=
      getCoapReq_lookup h hmode hsearch (handlerOf E request.resource).reqType
    have hestMode : mid.estMode = ctx.estMode := by rw [hsame]
    cases pointer with
    | none =>
      have hlookup := hnull rfl
      refine ⟨mid, errorExit 500 none [], (PeerMap.ofCtx ctx).entry key,
        by simp [handleRequest, hadmit, hget], hinv, hsame,
        by simp [peerRequest, hadmit, hlookup], ?_⟩
      have hstate : (PeerMap.ofCtx ctx).entry key = none := by
        unfold peerLookup at hlookup
        split at hlookup
        · cases hlookup
        · assumption
      rw [hentry, hlookup, hstate]
    | some i =>
      obtain ⟨node, hnode, rfl, hlookup⟩ := hsome i rfl
      obtain ⟨next, out, hbody⟩ := body_defined ctx.estMode (hdefined hadmit node hlookup)
      have hkey := body_key hbody
      have hne := searchKey_ne_nil _ hsearch
      refine ⟨storeNode mid i next, out, some next, ?_, storeNode_inv hinv hnode hkey hne,
        hsame.trans rfl, by simp [peerRequest, hadmit, hlookup, hbody], ?_⟩
      · simp [handleRequest, hadmit, hget, hnode, hestMode, hbody]
      · rw [storeNode_ofCtx hinv hnode hkey hne]
        simp only [PeerMap.put]
        rw [hentry, Function.update_idem]

/-- Without an address text a peer is turned away and nothing changes. -/
theorem serverStep_no_key (hmode : ctx.transportMode = .coap) {input : PeerEvent}
    (hsearch : searchKey E.toPlatform input.peer = none) :
    ∃ out, serverStep E ctx input = some (ctx, out) ∧
      peerStep E ctx.estMode [] none (input.event, false) = some (none, out) := by
  have hget : ∀ req, getCoapReq E.toPlatform ctx input.peer req = some (ctx, none) := by
    intro req
    simp [getCoapReq, hmode, hsearch]
  obtain ⟨peer, event⟩ := input
  cases event with
  | connected =>
    exact ⟨none, by simp [serverStep, dtlsConnected, hget], by simp [peerStep, peerLookup]⟩
  | closed =>
    exact ⟨none, by simp [serverStep, dtlsClosed, hget, removeCoapReq], by simp [peerStep]⟩
  | request request =>
    cases hadmit : (handlerOf E request.resource).admission request with
    | some out =>
      exact ⟨some out, by simp [serverStep, handleRequest, hadmit],
        by simp [peerStep, peerRequest, hadmit]⟩
    | none =>
      exact ⟨some (errorExit 500 none []), by simp [serverStep, handleRequest, hadmit, hget],
        by simp [peerStep, peerRequest, hadmit, peerLookup]⟩

/-- One event: it is the reduced step for its own peer, and no step at all for
every peer with another key. -/
theorem serverStep_spec (h : TableInv ctx) (hmode : ctx.transportMode = .coap) {input : PeerEvent}
    (hdefined : StepDefined E ctx input) :
    ∃ next out, serverStep E ctx input = some (next, out) ∧ TableInv next ∧ SameConfig ctx next ∧
      peerStep E ctx.estMode (peerKey E input.peer) (peerState E ctx input.peer)
        (input.event, peerRoom E ctx input.peer) = some (peerState E next input.peer, out) ∧
      ∀ other, (∀ key, searchKey E.toPlatform input.peer = some key →
        searchKey E.toPlatform other ≠ some key) → peerState E next other = peerState E ctx other := by
  cases hsearch : searchKey E.toPlatform input.peer with
  | none =>
    obtain ⟨out, hstep, hpeer⟩ := serverStep_no_key hmode hsearch
    refine ⟨ctx, out, hstep, h, rfl, ?_, fun _ _ => rfl⟩
    simpa [peerKey, peerState, peerRoom, hsearch] using hpeer
  | some key =>
    have hstate : ∀ ctx, peerState E ctx input.peer = (PeerMap.ofCtx ctx).entry key := by
      intro ctx
      simp [peerState, hsearch]
    have hroom : peerRoom E ctx input.peer = room ctx := by simp [peerRoom, hsearch]
    have hkey : peerKey E input.peer = key := by simp [peerKey, hsearch]
    have hframe : ∀ {next : CoapCtx} {state},
        (PeerMap.ofCtx next).entry = Function.update (PeerMap.ofCtx ctx).entry key state →
        ∀ other, (∀ k, some key = some k → searchKey E.toPlatform other ≠ some k) →
          peerState E next other = peerState E ctx other := by
      intro next state hentry other hother
      unfold peerState
      cases hsearchOther : searchKey E.toPlatform other with
      | none => rfl
      | some k =>
        have hne : k ≠ key := fun heq => hother key rfl (heq ▸ hsearchOther)
        simp only [Option.bind_some, hentry]
        rw [Function.update_of_ne hne]
    unfold StepDefined at hdefined
    rw [hkey, hstate, hroom] at hdefined
    rw [hkey, hstate, hroom]
    obtain ⟨peer, event⟩ := input
    cases event with
    | connected =>
      obtain ⟨next, hstep, hinv, hsame, hentry⟩ := dtlsConnected_spec h hmode hsearch
      refine ⟨next, none, by simp [serverStep, hstep], hinv, hsame, ?_, hframe hentry⟩
      rw [hstate, hentry, Function.update_self]
      rfl
    | closed =>
      obtain ⟨next, hstep, hinv, hsame, hentry⟩ := dtlsClosed_spec h hmode hsearch
      refine ⟨next, none, by simp [serverStep, hstep], hinv, hsame, ?_, hframe hentry⟩
      rw [hstate, hentry, Function.update_self]
      rfl
    | request request =>
      obtain ⟨next, out, state, hstep, hinv, hsame, hpeer, hentry⟩ :=
        handleRequest_spec h hmode hsearch hdefined
      refine ⟨next, some out, by simp [serverStep, hstep], hinv, hsame, ?_, hframe hentry⟩
      rw [hstate, hentry, Function.update_self]
      simp [peerStep, hpeer]

end Simulation

section Runs

def ownEvents (peer : SockAddr) (inputs : List PeerEvent) : List Event :=
  (inputs.filter fun input => input.peer = peer).map PeerEvent.event

def ownOutputs (peer : SockAddr) (inputs : List PeerEvent) (outs : List (Option Outcome)) :
    List (Option Outcome) :=
  ((inputs.zip outs).filter fun pair => pair.1.peer = peer).map Prod.snd

/-- No other peer of the run has this peer's key. -/
def KeyAlone (peer : SockAddr) (inputs : List PeerEvent) : Prop :=
  ∀ input ∈ inputs, input.peer ≠ peer → ∀ key,
    searchKey E.toPlatform input.peer = some key → searchKey E.toPlatform peer ≠ some key

variable {E} {ctx : CoapCtx}

/-- A run of the server is, for each peer whose key is its own, a run of the
reduced server on that peer's events alone. -/
theorem serverRun_spec (h : TableInv ctx) (hmode : ctx.transportMode = .coap)
    (inputs : List PeerEvent) (hdefined : Guarded (serverStep E) (StepDefined E) ctx inputs) :
    ∃ last outs, run (serverStep E) ctx inputs = some (last, outs) ∧ TableInv last ∧
      SameConfig ctx last ∧
      ∀ peer, KeyAlone E peer inputs → ∃ rooms, rooms.length = (ownEvents peer inputs).length ∧
        run (peerStep E ctx.estMode (peerKey E peer)) (peerState E ctx peer)
          ((ownEvents peer inputs).zip rooms) =
            some (peerState E last peer, ownOutputs peer inputs outs) := by
  induction inputs generalizing ctx with
  | nil => exact ⟨ctx, [], rfl, h, rfl, fun peer _ => ⟨[], rfl, rfl⟩⟩
  | cons input inputs ih =>
    obtain ⟨next, out, hstep, hinv, hsame, hpeer, hframe⟩ := serverStep_spec h hmode hdefined.1
    have hmode' : next.transportMode = .coap := by rw [hsame]; exact hmode
    have hestMode : next.estMode = ctx.estMode := by rw [hsame]
    obtain ⟨last, outs, hrun, hlast, hsame', hpeers⟩ :=
      ih hinv hmode' (hdefined.2 next out hstep)
    refine ⟨last, out :: outs, run_cons_iff.mpr ⟨next, out, outs, hstep, hrun, rfl⟩, hlast,
      hsame.trans hsame', ?_⟩
    intro peer halone
    obtain ⟨rooms, hlength, hrunPeer⟩ :=
      hpeers peer fun other hother => halone other (by simp [hother])
    rw [hestMode] at hrunPeer
    by_cases hown : input.peer = peer
    · subst hown
      refine ⟨peerRoom E ctx input.peer :: rooms, by simp [ownEvents] at hlength ⊢; exact hlength, ?_⟩
      have hevents : ownEvents input.peer (input :: inputs) =
          input.event :: ownEvents input.peer inputs := by simp [ownEvents]
      have houts : ownOutputs input.peer (input :: inputs) (out :: outs) =
          out :: ownOutputs input.peer inputs outs := by simp [ownOutputs]
      rw [hevents, houts, List.zip_cons_cons]
      exact run_cons_iff.mpr ⟨_, out, _, hpeer, hrunPeer, rfl⟩
    · have hevents : ownEvents peer (input :: inputs) = ownEvents peer inputs := by
        simp [ownEvents, hown]
      have houts : ownOutputs peer (input :: inputs) (out :: outs) = ownOutputs peer inputs outs := by
        simp [ownOutputs, hown]
      refine ⟨rooms, by rw [hevents]; exact hlength, ?_⟩
      rw [hevents, houts]
      rw [hframe peer (halone input (by simp) hown)] at hrunPeer
      exact hrunPeer

section Tracked

variable {τ : Type} {note : CoapCtx → PeerEvent → Option Outcome → τ → τ} {s : CoapCtx × τ}
  {input : PeerEvent}

/-- The server with a history variable beside it takes every event it is defined
on. -/
theorem tracked_defined (h : TableInv s.1 ∧ s.1.transportMode = .coap)
    (hdefined : StepDefined E s.1 input) :
    ∃ next out, tracked (serverStep E) note s input = some (next, out) ∧
      (TableInv next.1 ∧ next.1.transportMode = .coap) := by
  obtain ⟨next, out, hstep, hnext, hsame, -⟩ := serverStep_spec h.1 h.2 hdefined
  refine ⟨(next, _), out, tracked_eq_some_iff.mpr ⟨hstep, rfl⟩, hnext, ?_⟩
  rw [hsame]
  exact h.2

/-- What such a step is, seen from the peer of the event. -/
theorem tracked_spec (h : TableInv s.1 ∧ s.1.transportMode = .coap)
    (hdefined : StepDefined E s.1 input) {next : CoapCtx × τ} {out : Option Outcome}
    (hstep : tracked (serverStep E) note s input = some (next, out)) :
    (TableInv next.1 ∧ next.1.transportMode = .coap) ∧ next.2 = note s.1 input out s.2 ∧
      peerStep E s.1.estMode (peerKey E input.peer) (peerState E s.1 input.peer)
        (input.event, peerRoom E s.1 input.peer) = some (peerState E next.1 input.peer, out) := by
  obtain ⟨hserver, hnote⟩ := tracked_eq_some_iff.mp hstep
  obtain ⟨next', out', hstep', hinv, hsame, hpeer, -⟩ := serverStep_spec h.1 h.2 hdefined
  have heq := hstep'.symm.trans hserver
  rw [Option.some.injEq, Prod.mk.injEq] at heq
  obtain ⟨rfl, rfl⟩ := heq
  refine ⟨⟨hinv, ?_⟩, hnote, hpeer⟩
  rw [hsame]
  exact h.2

end Tracked

end Runs

section Start

def uploadKind : Resource → Option UploadKind
  | .sen => some (senKind E .sen)
  | .sren => some (senKind E .sren)
  | .skg => some (skgKind E)
  | .crts | .att => none

/-- The node a request works on, after the lookup and a restart. -/
def startNode (key : Bytes) (state : Option CoapReqNode) (room : Bool) (request : Request) :
    Option CoapReqNode :=
  if ((handlerOf E request.resource).admission request).isSome then none
  else
    (peerLookup key state room (handlerOf E request.resource).reqType).map fun node =>
      match uploadKind E request.resource with
      | some kind => restartUpload kind request.pdu node
      | none => node

variable {E} {key : Bytes} {state : Option CoapReqNode} {room : Bool} {request : Request}
  {start : CoapReqNode}

theorem reqType_ne_reset (resource : Resource) :
    (handlerOf E resource).reqType ≠ .reset := by
  intro h
  cases resource <;> cases h

theorem uploadKind_reqType {resource : Resource} {kind : UploadKind}
    (h : uploadKind E resource = some kind) : kind.reqType = (handlerOf E resource).reqType := by
  cases resource <;> cases h <;> rfl

theorem body_upload {mode : EstMode} {kind : UploadKind}
    (h : uploadKind E request.resource = some kind) :
    (handlerOf E request.resource).body mode request = uploadBody E mode kind request := by
  cases hres : request.resource <;> rw [hres] at h <;> cases h <;> rfl

theorem reqType_injective {a b : Resource}
    (h : (handlerOf E a).reqType = (handlerOf E b).reqType) : a = b := by
  cases a <;> cases b <;> first | rfl | cases h

/-- A node is handed out for the request at hand, zeroed or as it was. -/
theorem lookup_cases {req : EstCoapReq} (hreq : req ≠ .reset) {node : CoapReqNode}
    (h : peerLookup key state room req = some node) :
    node.curReq = req ∧ (node = fresh node.key node.curReq ∨ state = some node) := by
  unfold peerLookup at h
  split at h
  · rename_i old
    cases h
    unfold touch
    split
    · exact ⟨rfl, Or.inl rfl⟩
    · rename_i hsame
      have hcur : old.curReq = req := by
        by_contra hne
        exact hsame ⟨hne, hreq⟩
      exact ⟨hcur, Or.inr rfl⟩
  · split at h
    · cases h
      exact ⟨rfl, Or.inl rfl⟩
    · cases h

/-- A request starts from a zeroed node or from the node as it was. -/
theorem startNode_cases (h : startNode E key state room request = some start) :
    start.curReq = (handlerOf E request.resource).reqType ∧
      (start = fresh start.key start.curReq ∨ state = some start) := by
  unfold startNode at h
  split at h
  · cases h
  · obtain ⟨node, hlookup, rfl⟩ := Option.map_eq_some_iff.mp h
    obtain ⟨hcur, hbuf⟩ := lookup_cases (reqType_ne_reset _) hlookup
    split
    · rename_i kind hkind
      unfold restartUpload
      split
      · exact ⟨uploadKind_reqType hkind, Or.inl rfl⟩
      · exact ⟨hcur, hbuf⟩
    · exact ⟨hcur, hbuf⟩

end Start

section Nodes

variable {E} {inv : CoapReqNode → Prop} {mode : EstMode} {key : Bytes}
  {state next : Option CoapReqNode}

/-- What holds of a zeroed node holds of one that is handed out. -/
theorem lookup_keeps (hfresh : ∀ key req, inv (fresh key req)) (h : ∀ node ∈ state, inv node)
    {room : Bool} {req : EstCoapReq} : ∀ node ∈ peerLookup key state room req, inv node := by
  intro node hnode
  rw [Option.mem_def] at hnode
  unfold peerLookup at hnode
  split at hnode
  · rename_i old
    cases hnode
    unfold touch
    split
    · exact hfresh _ _
    · exact h old rfl
  · split at hnode
    · cases hnode
      exact hfresh _ _
    · cases hnode

/-- The invariant rule for the node of a peer: it has to hold of zeroed nodes, and
the handlers have to keep it. -/
theorem peerStep_keeps (hfresh : ∀ key req, inv (fresh key req))
    (hbody : ∀ request node after out, inv node →
      node.curReq = (handlerOf E request.resource).reqType →
      (handlerOf E request.resource).body mode request node = some (after, out) → inv after)
    (h : ∀ node ∈ state, inv node) {input : Event × Bool} {out : Option Outcome}
    (hstep : peerStep E mode key state input = some (next, out)) : ∀ node ∈ next, inv node := by
  obtain ⟨event, room⟩ := input
  cases event with
  | connected =>
    cases hstep
    exact lookup_keeps hfresh h
  | closed =>
    cases hstep
    simp
  | request request =>
    obtain ⟨⟨after, made⟩, hrequest, heq⟩ := Option.map_eq_some_iff.mp hstep
    cases heq
    unfold peerRequest at hrequest
    dsimp only at hrequest
    split at hrequest
    · cases hrequest
      exact h
    · split at hrequest
      · cases hrequest
        exact h
      · rename_i node hlookup
        obtain ⟨⟨last, final⟩, hlast, heq⟩ := Option.map_eq_some_iff.mp hrequest
        cases heq
        intro other hother
        cases hother
        have hnode := lookup_keeps hfresh h node hlookup
        exact hbody request node last final hnode
          (lookup_cases (reqType_ne_reset _) hlookup).1 hlast

/-- Restarting an upload zeroes its node. -/
theorem restart_keeps (hfresh : ∀ key req, inv (fresh key req)) (kind : UploadKind) (pdu : Pdu)
    {node : CoapReqNode} (h : inv node) : inv (restartUpload kind pdu node) := by
  unfold restartUpload
  split
  · exact hfresh _ _
  · exact h

/-- A handler that takes no upload fetches something. -/
theorem body_download {request : Request} {node after : CoapReqNode} {out : Outcome}
    (h : uploadKind E request.resource = none)
    (hbody : (handlerOf E request.resource).body mode request node = some (after, out)) :
    (handlerOf E request.resource).reqType ≠ .skg ∧
      ∃ kind, downloadBody E mode kind request node = some (after, out) := by
  cases hres : request.resource with
  | sen | sren | skg =>
    rw [hres] at h
    cases h
  | crts | att =>
    rw [hres] at hbody
    refine ⟨?_, _, hbody⟩
    intro hskg
    cases hskg

end Nodes

/-- The table of a server that has just been started. -/
structure FreshTable (ctx : CoapCtx) : Prop where
  inv : TableInv ctx
  coap : ctx.transportMode = .coap
  empty : ∀ key, (PeerMap.ofCtx ctx).entry key = none

theorem FreshTable.peerState {ctx : CoapCtx} (h : FreshTable ctx) (peer : SockAddr) :
    peerState E ctx peer = none := by
  unfold Server.peerState
  cases searchKey E.toPlatform peer with
  | none => rfl
  | some key => exact h.empty key

/-- Any size that the resize accepts, then a start that succeeds. -/
def startedServer (mode : EstMode) (sessionMax port : Int) : CoapCtx :=
  (estServerCoapInitStart (estServerSetDtlsSessionMax (estServerInit mode) sessionMax true).1
    port true).1

theorem startedServer_fresh {mode : EstMode} {port : Int} (hmode : mode = .server ∨ mode = .proxy)
    (hlow : 0 ≤ port) (hhigh : port ≤ 65535) (sessionMax : Int) :
    FreshTable (startedServer mode sessionMax port) := by
  have hsized : ∃ n, (estServerSetDtlsSessionMax (estServerInit mode) sessionMax true).1 =
      { estServerInit mode with
        dtlsSessionMax := n
        coapReqArray := List.replicate n blank
        curMaxCoapReqArray := n } := by
    unfold estServerSetDtlsSessionMax
    split
    · exact ⟨estDtlsSessionMaxDef, rfl⟩
    · split
      · exact ⟨estDtlsSessionMaxDef, rfl⟩
      · exact ⟨sessionMax.toNat, rfl⟩
  obtain ⟨n, hn⟩ := hsized
  have hallowed : ¬ (mode ≠ .server ∧ mode ≠ .proxy) := by
    rintro ⟨hserver, hproxy⟩
    exact hmode.elim hserver hproxy
  have hport : ¬ (port < 0 ∨ port > 65535) := by omega
  have hstarted : startedServer mode sessionMax port =
      { estServerInit mode with
        dtlsSessionMax := n
        coapReqArray := List.replicate n blank
        curMaxCoapReqArray := n
        coapServerPortNum := port.toNat
        coapCtx := true
        transportMode := .coap
        requireHttpAuth := .notRequired } := by
    rw [startedServer, hn, estServerCoapInitStart]
    simp only [estServerInit, hallowed, hport, if_false, if_true]
  rw [hstarted]
  refine ⟨⟨List.length_replicate, sorted_replicate _ _, wellFormed_replicate _, ?_⟩, rfl, ?_⟩
  · simp [estServerInit]
  · intro key
    by_cases hkey : key = []
    · rw [hkey, PeerMap.ofCtx_entry_nil]
    · rw [PeerMap.ofCtx_entry _ hkey]
      exact contents_replicate hkey

end LibEst.Coap.Server
