import LibEst.Lib.Machine
import LibEst.Coap.TableMap
import LibEst.Coap.Reference

/-! The request table over whole runs: sizing, starting, and then lookups,
restarts, removals and session events in any order. The table behaves as a
bounded map as long as no resize is accepted while nodes are in use. -/
namespace LibEst.Coap.TableInvariant

open LibEst.Basic LibEst.Lib.ByteString LibEst.Lib.SlotArray LibEst.Lib.Machine
open LibEst.Coap.ReqTable LibEst.Coap.TableMap

/-- The calls that reach the table. Nodes are only ever obtained from
`get_coap_req`, so a restart, a removal or an assignment names the peer whose
node it is given; `assign` is what the request handlers do with a node. -/
inductive TableOp where
  | setDtlsSessionMax (sessionMax : Int) (callocOk : Bool)
  | coapInitStart (port : Int) (contextOk : Bool)
  | getCoapReq (addr : SockAddr) (req : EstCoapReq)
  | reinitCoapReq (addr : SockAddr) (req : EstCoapReq)
  | removeCoapReq (addr : SockAddr) (req : EstCoapReq)
  | assign (addr : SockAddr) (req : EstCoapReq) (content : CoapReqNode → CoapReqNode)
  | connected (addr : SockAddr)
  | closed (addr : SockAddr)

inductive TableOut where
  | status (rc : EstError)
  | handed (node : Option CoapReqNode)
  | notStarted

/-- A handler may change everything in its node but the key. -/
def assigned (content : CoapReqNode → CoapReqNode) (node : CoapReqNode) : CoapReqNode :=
  { content node with key := node.key }

variable (P : Platform)

def withNode (ctx : CoapCtx) (addr : SockAddr) (req : EstCoapReq)
    (content : CoapReqNode → CoapReqNode) : Option (CoapCtx × TableOut) := do
  let (ctx, pointer) ← getCoapReq P ctx addr req
  match pointer with
  | none => some (ctx, .handed none)
  | some i =>
      match ctx.coapReqArray[i]? with
      | none => none
      | some node => some (storeNode ctx i (assigned content node), .handed (some node))

def withRemoval (ctx : CoapCtx) (addr : SockAddr) (req : EstCoapReq) :
    Option (CoapCtx × TableOut) := do
  let (ctx, pointer) ← getCoapReq P ctx addr req
  let (ctx, _) ← removeCoapReq P ctx pointer
  some (ctx, .handed none)

def tableStep (ctx : CoapCtx) : TableOp → Option (CoapCtx × TableOut)
  | .setDtlsSessionMax sessionMax callocOk =>
      let (ctx, rc) := estServerSetDtlsSessionMax ctx sessionMax callocOk
      some (ctx, .status rc)
  | .coapInitStart port contextOk =>
      let (ctx, rc) := estServerCoapInitStart ctx port contextOk
      some (ctx, .status rc)
  | .getCoapReq addr req =>
      if ctx.coapCtx then withNode P ctx addr req id else some (ctx, .notStarted)
  | .reinitCoapReq addr req =>
      if ctx.coapCtx then withNode P ctx addr req (ReqTable.reinitCoapReq · req)
      else some (ctx, .notStarted)
  | .removeCoapReq addr req =>
      if ctx.coapCtx then withRemoval P ctx addr req else some (ctx, .notStarted)
  | .assign addr req content =>
      if ctx.coapCtx then withNode P ctx addr req content else some (ctx, .notStarted)
  | .connected addr =>
      if ctx.coapCtx then withNode P ctx addr .reset id else some (ctx, .notStarted)
  | .closed addr =>
      if ctx.coapCtx then withRemoval P ctx addr .reset else some (ctx, .notStarted)

/-- A resize that passes its checks finds no node in use and gets its memory. -/
def ResizeSafe (ctx : CoapCtx) : TableOp → Prop
  | .setDtlsSessionMax sessionMax callocOk =>
      ctx.coapServerPortNum = 0 →
      estDtlsSessionMaxMin ≤ sessionMax → sessionMax ≤ estDtlsSessionMaxMax →
      ctx.coapReqCnt = 0 ∧ callocOk = true
  | _ => True

/-- The same calls on the bounded map. -/
structure TableSpec where
  mode : EstMode
  portNum : Nat
  started : Bool
  map : PeerMap

def TableSpec.ofCtx (ctx : CoapCtx) : TableSpec where
  mode := ctx.estMode
  portNum := ctx.coapServerPortNum
  started := ctx.coapCtx
  map := PeerMap.ofCtx ctx

def PeerMap.empty (capacity : Nat) : PeerMap where
  capacity := capacity
  inUse := 0
  entry _ := none

def TableSpec.withNode (spec : TableSpec) (addr : SockAddr) (req : EstCoapReq)
    (content : CoapReqNode → CoapReqNode) : TableSpec × TableOut :=
  match searchKey P addr with
  | none => (spec, .handed none)
  | some key =>
      match spec.map.get key req with
      | (map, none) => ({ spec with map := map }, .handed none)
      | (map, some node) =>
          ({ spec with map := map.put key (assigned content node) }, .handed (some node))

def TableSpec.withRemoval (spec : TableSpec) (addr : SockAddr) : TableSpec × TableOut :=
  match searchKey P addr with
  | none => (spec, .handed none)
  | some key => ({ spec with map := spec.map.remove key }, .handed none)

def TableSpec.step (spec : TableSpec) : TableOp → TableSpec × TableOut
  | .setDtlsSessionMax sessionMax _ =>
      if spec.portNum ≠ 0 then (spec, .status .serverAlreadyOperational)
      else if sessionMax < estDtlsSessionMaxMin ∨ sessionMax > estDtlsSessionMaxMax then
        (spec, .status .invalidParameters)
      else ({ spec with map := PeerMap.empty sessionMax.toNat }, .status .none)
  | .coapInitStart port contextOk =>
      if spec.mode ≠ .server ∧ spec.mode ≠ .proxy then (spec, .status .badMode)
      else if port < 0 ∨ port > 65535 then (spec, .status .invalidPortNum)
      else if contextOk then ({ spec with portNum := port.toNat, started := true }, .status .none)
      else ({ spec with portNum := port.toNat, started := false }, .status .coapProcessingError)
  | .getCoapReq addr req =>
      if spec.started then spec.withNode P addr req id else (spec, .notStarted)
  | .reinitCoapReq addr req =>
      if spec.started then spec.withNode P addr req (ReqTable.reinitCoapReq · req)
      else (spec, .notStarted)
  | .removeCoapReq addr _ =>
      if spec.started then spec.withRemoval P addr else (spec, .notStarted)
  | .assign addr req content =>
      if spec.started then spec.withNode P addr req content else (spec, .notStarted)
  | .connected addr =>
      if spec.started then spec.withNode P addr .reset id else (spec, .notStarted)
  | .closed addr =>
      if spec.started then spec.withRemoval P addr else (spec, .notStarted)

def TableSpec.run (spec : TableSpec) : List TableOp → TableSpec × List TableOut
  | [] => (spec, [])
  | op :: ops =>
      let (next, out) := spec.step P op
      let (last, outs) := TableSpec.run next ops
      (last, out :: outs)

section Steps

variable {ctx : CoapCtx}

/-- The invariant that every call keeps. -/
structure TableOk (ctx : CoapCtx) : Prop where
  inv : TableInv ctx
  started : ctx.coapCtx = true → ctx.transportMode = .coap

theorem ofCtx_of_sameConfig {next : CoapCtx} (h : SameConfig ctx next) :
    TableSpec.ofCtx next = { TableSpec.ofCtx ctx with map := PeerMap.ofCtx next } := by
  rw [h]
  rfl

theorem TableOk.of_sameConfig {next : CoapCtx} (h : SameConfig ctx next) (hctx : TableOk ctx)
    (hinv : TableInv next) : TableOk next where
  inv := hinv
  started := by
    rw [h]
    exact hctx.started

/-- A lookup either hands out nothing and changes nothing, or hands out the node
that the map now holds for the peer. -/
theorem getCoapReq_cases (h : TableInv ctx) (hmode : ctx.transportMode = .coap) {addr : SockAddr}
    {key : Bytes} (hsearch : searchKey P addr = some key) (req : EstCoapReq) :
    (getCoapReq P ctx addr req = some (ctx, none) ∧
      (PeerMap.ofCtx ctx).get key req = (PeerMap.ofCtx ctx, none)) ∨
    ∃ next i node, getCoapReq P ctx addr req = some (next, some i) ∧ TableInv next ∧
      SameConfig ctx next ∧ next.coapReqArray[i]? = some node ∧ node.key = key ∧
      (PeerMap.ofCtx ctx).get key req = (PeerMap.ofCtx next, some node) := by
  obtain ⟨next, pointer, hget, hinv, hsame, hmap, hhanded, hnull⟩ :=
    getCoapReq_spec P h hmode hsearch (searchKey_ne_nil P hsearch) req
  cases hresult : ((PeerMap.ofCtx ctx).get key req).2 with
  | none =>
    rw [hresult] at hhanded
    cases pointer with
    | some i => cases hhanded
    | none =>
      obtain rfl := hnull rfl
      exact Or.inl ⟨hget, Prod.ext hmap.symm hresult⟩
  | some node =>
    rw [hresult] at hhanded
    cases pointer with
    | none => cases hhanded
    | some i =>
      exact Or.inr ⟨next, i, node, hget, hinv, hsame, hhanded, PeerMap.get_key ctx hresult,
        Prod.ext hmap.symm hresult⟩

theorem withNode_spec (h : TableInv ctx) (hmode : ctx.transportMode = .coap) (addr : SockAddr)
    (req : EstCoapReq) (content : CoapReqNode → CoapReqNode) :
    ∃ next out, withNode P ctx addr req content = some (next, out) ∧ TableInv next ∧
      SameConfig ctx next ∧
      (TableSpec.ofCtx next, out) = (TableSpec.ofCtx ctx).withNode P addr req content := by
  cases hsearch : searchKey P addr with
  | none =>
    refine ⟨ctx, .handed none, ?_, h, rfl, ?_⟩
    · simp [withNode, getCoapReq, hmode, hsearch]
    · simp [TableSpec.withNode, hsearch]
  | some key =>
    rcases getCoapReq_cases P h hmode hsearch req with
      ⟨hget, hmap⟩ | ⟨next, i, node, hget, hinv, hsame, hnode, rfl, hmap⟩
    · refine ⟨ctx, .handed none, ?_, h, rfl, ?_⟩
      · simp [withNode, hget]
      · simp [TableSpec.withNode, hsearch, TableSpec.ofCtx, hmap]
    · have hne := searchKey_ne_nil P hsearch
      have hkey : (assigned content node).key = node.key := rfl
      have hsame' : SameConfig ctx (storeNode next i (assigned content node)) :=
        hsame.trans rfl
      refine ⟨storeNode next i (assigned content node), .handed (some node), ?_,
        storeNode_inv hinv hnode hkey hne, hsame', ?_⟩
      · simp [withNode, hget, hnode]
      · rw [ofCtx_of_sameConfig hsame', storeNode_ofCtx hinv hnode hkey hne]
        simp [TableSpec.withNode, hsearch, TableSpec.ofCtx, hmap]

private theorem remove_get {m next : PeerMap} {key : Bytes} {req : EstCoapReq} {node : CoapReqNode}
    (h : m.get key req = (next, some node)) : next.remove key = m.remove key := by
  unfold PeerMap.get at h
  split at h
  · rename_i old hold
    cases h
    simp [PeerMap.remove, PeerMap.put, hold]
  · rename_i hnone
    split at h
    · cases h
      have hrestore : Function.update m.entry key none = m.entry := by
        rw [← hnone, Function.update_eq_self]
      simp [PeerMap.remove, PeerMap.put, hnone, hrestore]
    · cases h

private theorem remove_of_get_none {m : PeerMap} {key : Bytes} {req : EstCoapReq}
    (h : m.get key req = (m, none)) : m.remove key = m := by
  unfold PeerMap.get at h
  split at h
  · simp at h
  · rename_i hnone
    simp [PeerMap.remove, hnone]

theorem withRemoval_spec (h : TableInv ctx) (hmode : ctx.transportMode = .coap) (addr : SockAddr)
    (req : EstCoapReq) :
    ∃ next out, withRemoval P ctx addr req = some (next, out) ∧ TableInv next ∧
      SameConfig ctx next ∧
      (TableSpec.ofCtx next, out) = (TableSpec.ofCtx ctx).withRemoval P addr := by
  cases hsearch : searchKey P addr with
  | none =>
    refine ⟨ctx, .handed none, ?_, h, rfl, ?_⟩
    · simp [withRemoval, getCoapReq, hmode, hsearch, removeCoapReq]
    · simp [TableSpec.withRemoval, hsearch]
  | some key =>
    rcases getCoapReq_cases P h hmode hsearch req with
      ⟨hget, hmap⟩ | ⟨mid, i, node, hget, hinv, hsame, hnode, rfl, hmap⟩
    · refine ⟨ctx, .handed none, ?_, h, rfl, ?_⟩
      · simp [withRemoval, hget, removeCoapReq]
      · simp [TableSpec.withRemoval, hsearch, TableSpec.ofCtx, remove_of_get_none hmap]
    · obtain ⟨next, hremove, hinv', hsame', hmap'⟩ :=
        removeCoapReq_spec P hinv hnode (searchKey_ne_nil P hsearch)
      refine ⟨next, .handed none, ?_, hinv', hsame.trans hsame', ?_⟩
      · simp [withRemoval, hget, hremove]
      · rw [ofCtx_of_sameConfig (hsame.trans hsame'), hmap', remove_get hmap]
        simp [TableSpec.withRemoval, hsearch, TableSpec.ofCtx]

theorem estServerSetDtlsSessionMax_spec (h : TableOk ctx) {sessionMax : Int} {callocOk : Bool}
    (hsafe : ResizeSafe ctx (.setDtlsSessionMax sessionMax callocOk)) :
    TableOk (estServerSetDtlsSessionMax ctx sessionMax callocOk).1 ∧
      (TableSpec.ofCtx (estServerSetDtlsSessionMax ctx sessionMax callocOk).1,
        TableOut.status (estServerSetDtlsSessionMax ctx sessionMax callocOk).2) =
        (TableSpec.ofCtx ctx).step P (.setDtlsSessionMax sessionMax callocOk) := by
  unfold estServerSetDtlsSessionMax TableSpec.step
  by_cases hport : ctx.coapServerPortNum = 0
  · by_cases hrange : sessionMax < estDtlsSessionMaxMin ∨ sessionMax > estDtlsSessionMaxMax
    · simp [hport, hrange, h, TableSpec.ofCtx]
    · have hle := not_or.mp hrange
      obtain ⟨hcnt, rfl⟩ := hsafe hport (not_lt.mp hle.1) (not_lt.mp hle.2)
      simp only [hport, ne_eq, not_true_eq_false, if_false, hrange, estCoapInitReqArray, if_true,
        TableSpec.ofCtx, PeerMap.ofCtx, used_replicate, PeerMap.empty]
      refine ⟨⟨⟨by simp, sorted_replicate _ _, wellFormed_replicate _, ?_⟩, h.started⟩, ?_⟩
      · simp [hcnt]
      · simp only [Prod.mk.injEq, TableSpec.mk.injEq, PeerMap.mk.injEq, true_and, and_true]
        funext key
        by_cases hkey : key = []
        · simp [hkey]
        · rw [if_neg hkey]
          exact contents_replicate hkey
  · simp [hport, h, TableSpec.ofCtx]

theorem estServerCoapInitStart_spec (h : TableOk ctx) (port : Int) (contextOk : Bool) :
    TableOk (estServerCoapInitStart ctx port contextOk).1 ∧
      (TableSpec.ofCtx (estServerCoapInitStart ctx port contextOk).1,
        TableOut.status (estServerCoapInitStart ctx port contextOk).2) =
        (TableSpec.ofCtx ctx).step P (.coapInitStart port contextOk) := by
  have hinv := h.inv
  unfold estServerCoapInitStart TableSpec.step TableSpec.ofCtx
  by_cases hmode : ctx.estMode ≠ .server ∧ ctx.estMode ≠ .proxy
  · simp [hmode, h]
  · by_cases hport : port < 0 ∨ port > 65535
    · simp [hmode, hport, h]
    · cases contextOk
      · refine ⟨?_, ?_⟩
        · simp only [hmode, hport, if_false]
          exact ⟨⟨hinv.size, hinv.sorted, hinv.wellFormed, hinv.count⟩, by simp⟩
        · simp only [hmode, hport, if_false]
          rfl
      · refine ⟨?_, ?_⟩
        · simp only [hmode, hport, if_false, if_true]
          exact ⟨⟨hinv.size, hinv.sorted, hinv.wellFormed, hinv.count⟩, fun _ => rfl⟩
        · simp only [hmode, hport, if_false, if_true]
          rfl

/-- One call: it is defined, keeps the invariant and does what the map does. -/
theorem tableStep_spec (h : TableOk ctx) {op : TableOp} (hsafe : ResizeSafe ctx op) :
    ∃ next out, tableStep P ctx op = some (next, out) ∧ TableOk next ∧
      (TableSpec.ofCtx next, out) = (TableSpec.ofCtx ctx).step P op := by
  have hnode : ∀ addr req content, ctx.coapCtx = true → ∃ next out,
      withNode P ctx addr req content = some (next, out) ∧ TableOk next ∧
        (TableSpec.ofCtx next, out) = (TableSpec.ofCtx ctx).withNode P addr req content := by
    intro addr req content hstarted
    obtain ⟨next, out, hstep, hinv, hsame, hspec⟩ :=
      withNode_spec P h.inv (h.started hstarted) addr req content
    exact ⟨next, out, hstep, h.of_sameConfig hsame hinv, hspec⟩
  have hremoval : ∀ addr req, ctx.coapCtx = true → ∃ next out,
      withRemoval P ctx addr req = some (next, out) ∧ TableOk next ∧
        (TableSpec.ofCtx next, out) = (TableSpec.ofCtx ctx).withRemoval P addr := by
    intro addr req hstarted
    obtain ⟨next, out, hstep, hinv, hsame, hspec⟩ :=
      withRemoval_spec P h.inv (h.started hstarted) addr req
    exact ⟨next, out, hstep, h.of_sameConfig hsame hinv, hspec⟩
  have hof : (TableSpec.ofCtx ctx).started = ctx.coapCtx := rfl
  cases op with
  | setDtlsSessionMax sessionMax callocOk =>
    obtain ⟨hok, hspec⟩ := estServerSetDtlsSessionMax_spec P h hsafe
    exact ⟨_, _, rfl, hok, hspec⟩
  | coapInitStart port contextOk =>
    obtain ⟨hok, hspec⟩ := estServerCoapInitStart_spec P h port contextOk
    exact ⟨_, _, rfl, hok, hspec⟩
  | getCoapReq addr req | reinitCoapReq addr req | assign addr req content | connected addr =>
    simp only [tableStep, TableSpec.step, hof]
    cases hstarted : ctx.coapCtx with
    | false => exact ⟨ctx, .notStarted, rfl, h, rfl⟩
    | true => exact hnode _ _ _ hstarted
  | removeCoapReq addr req | closed addr =>
    simp only [tableStep, TableSpec.step, hof]
    cases hstarted : ctx.coapCtx with
    | false => exact ⟨ctx, .notStarted, rfl, h, rfl⟩
    | true => exact hremoval _ _ hstarted

end Steps

theorem estServerInit_ok (mode : EstMode) : TableOk (estServerInit mode) where
  inv := {
    size := by simp [estServerInit]
    sorted := sorted_replicate _ _
    wellFormed := wellFormed_replicate _
    count := by simp [estServerInit] }
  started := by simp [estServerInit]

/-- Whole runs refine runs of the map, from any table that is in order. -/
theorem tableRun_refines {ctx : CoapCtx} (h : TableOk ctx) (ops : List TableOp)
    (hsafe : Guarded (tableStep P) ResizeSafe ctx ops) :
    ∃ last outs, run (tableStep P) ctx ops = some (last, outs) ∧ TableOk last ∧
      (TableSpec.ofCtx last, outs) = (TableSpec.ofCtx ctx).run P ops := by
  induction ops generalizing ctx with
  | nil => exact ⟨ctx, [], rfl, h, rfl⟩
  | cons op ops ih =>
    obtain ⟨next, out, hstep, hok, hspec⟩ := tableStep_spec P h hsafe.1
    obtain ⟨last, outs, hrun, hlast, hspecs⟩ := ih hok (hsafe.2 next out hstep)
    refine ⟨last, out :: outs, run_cons_iff.mpr ⟨next, out, outs, hstep, hrun, rfl⟩, hlast, ?_⟩
    rw [TableSpec.run, ← hspec]
    simp only
    rw [← hspecs]

section Laws

variable {ctx : CoapCtx}

theorem getCoapReq_present (h : TableOk ctx) (hstarted : ctx.coapCtx = true) {addr : SockAddr}
    {key : Bytes} (hsearch : searchKey P addr = some key) {node : CoapReqNode}
    (hnode : (PeerMap.ofCtx ctx).entry key = some node) (req : EstCoapReq) :
    ∃ next i, getCoapReq P ctx addr req = some (next, some i) ∧
      next.coapReqArray[i]? = some (touch node req) := by
  obtain ⟨i, hi, hget⟩ := getCoapReq_found P h.inv (h.started hstarted) hsearch hnode req
  refine ⟨_, i, hget, ?_⟩
  exact List.getElem?_set_self (List.getElem?_eq_some_iff.mp hi).1

theorem getCoapReq_full (h : TableOk ctx) (hstarted : ctx.coapCtx = true) {addr : SockAddr}
    {key : Bytes} (hsearch : searchKey P addr = some key)
    (habsent : (PeerMap.ofCtx ctx).entry key = none)
    (hfull : ctx.coapReqCnt = ctx.curMaxCoapReqArray) (req : EstCoapReq) :
    getCoapReq P ctx addr req = some (ctx, none) := by
  have hroom : ¬ (PeerMap.ofCtx ctx).inUse < (PeerMap.ofCtx ctx).capacity := by
    have hcount := h.inv.count
    simp only [PeerMap.ofCtx]
    omega
  rcases getCoapReq_cases P h.inv (h.started hstarted) hsearch req with
    ⟨hget, -⟩ | ⟨next, i, found, -, -, -, -, -, hmap⟩
  · exact hget
  · rw [PeerMap.get, habsent] at hmap
    simp [hroom] at hmap

/-- The close of a session that has no node takes one and gives it back: the
array may come out in another order of its free nodes, with the same nodes. -/
theorem dtlsClosed_absent (h : TableOk ctx) (hstarted : ctx.coapCtx = true) {addr : SockAddr}
    {key : Bytes} (hsearch : searchKey P addr = some key)
    (habsent : (PeerMap.ofCtx ctx).entry key = none) :
    ∃ next, dtlsClosed P ctx addr = some next ∧ next.coapReqArray.Perm ctx.coapReqArray ∧
      next.coapReqCnt = ctx.coapReqCnt := by
  obtain ⟨next, out, hstep, hinv, hsame, hspec⟩ :=
    withRemoval_spec P h.inv (h.started hstarted) addr .reset
  have hmap : PeerMap.ofCtx next = PeerMap.ofCtx ctx := by
    have hremove := congrArg (fun pair => pair.1.map) hspec
    simp only [TableSpec.withRemoval, hsearch, TableSpec.ofCtx, PeerMap.remove, habsent] at hremove
    exact hremove
  refine ⟨next, ?_, ?_, ?_⟩
  · simp only [withRemoval, Option.bind_eq_bind, Option.bind_eq_some_iff, Prod.exists,
      Option.some.injEq, Prod.mk.injEq] at hstep
    obtain ⟨mid, pointer, hget, last, found, hremove, rfl, -⟩ := hstep
    simp [dtlsClosed, hget, hremove]
  · have hused := congrArg PeerMap.inUse hmap
    have hentry := congrArg PeerMap.entry hmap
    have hcapacity := congrArg PeerMap.capacity hmap
    refine perm_of_contents hinv.wellFormed h.inv.wellFormed ?_ hused ?_
    · rw [hinv.size, h.inv.size]
      exact hcapacity
    · intro k hk
      rw [← PeerMap.ofCtx_entry next hk, hentry, PeerMap.ofCtx_entry ctx hk]
  · rw [hinv.count, h.inv.count]
    exact congrArg (fun m : PeerMap => (m.inUse : Int)) hmap

end Laws

/-- The table in every state that a run reaches when its resizes are safe. The
map named in the lookup law is what the calls of each peer leave behind. -/
theorem coapReqTable_invariant (mode : EstMode) (ops : List TableOp)
    (hsafe : Guarded (tableStep P) ResizeSafe (estServerInit mode) ops) :
    ∃ ctx outs, run (tableStep P) (estServerInit mode) ops = some (ctx, outs) ∧
      TableInv ctx ∧
      outs = ((TableSpec.ofCtx (estServerInit mode)).run P ops).2 ∧
      (ctx.coapCtx = true → ∀ addr key, searchKey P addr = some key →
        (∀ req node,
          ((TableSpec.ofCtx (estServerInit mode)).run P ops).1.map.entry key = some node →
          ∃ next i, getCoapReq P ctx addr req = some (next, some i) ∧
            next.coapReqArray[i]? = some (touch node req)) ∧
        (contents CoapReqNode.key ctx.coapReqArray key = none →
          (∀ req, ctx.coapReqCnt = ctx.curMaxCoapReqArray →
            getCoapReq P ctx addr req = some (ctx, none)) ∧
          ∃ next, dtlsClosed P ctx addr = some next ∧
            next.coapReqArray.Perm ctx.coapReqArray ∧ next.coapReqCnt = ctx.coapReqCnt)) := by
  obtain ⟨ctx, outs, hrun, hok, hspec⟩ := tableRun_refines P (estServerInit_ok mode) ops hsafe
  refine ⟨ctx, outs, hrun, hok.inv, congrArg Prod.snd hspec, ?_⟩
  intro hstarted addr key hsearch
  have hmap := congrArg (fun pair => pair.1.map) hspec
  simp only [TableSpec.ofCtx] at hmap
  constructor
  · intro req node hnode
    refine getCoapReq_present P hok hstarted hsearch ?_ req
    rw [hmap]
    exact hnode
  · intro habsent
    rw [← PeerMap.ofCtx_entry ctx (searchKey_ne_nil P hsearch)] at habsent
    exact ⟨fun req hfull => getCoapReq_full P hok hstarted hsearch habsent hfull req,
      dtlsClosed_absent P hok hstarted hsearch habsent⟩

theorem coapReqTable_invariant_one_peer :
    ∃ ctx outs, run (tableStep Reference.hostPlatform) (estServerInit .server)
        [.setDtlsSessionMax 2 true, .coapInitStart 5683 true, .connected (.inet 40000 0x01020304)] =
        some (ctx, outs) ∧ TableInv ctx := by
  obtain ⟨ctx, outs, hrun, hinv, -⟩ := coapReqTable_invariant Reference.hostPlatform .server
    [.setDtlsSessionMax 2 true, .coapInitStart 5683 true, .connected (.inet 40000 0x01020304)]
    ⟨fun _ _ _ => ⟨rfl, rfl⟩, fun _ _ _ => ⟨trivial, fun _ _ _ => ⟨trivial, fun _ _ _ => trivial⟩⟩⟩
  exact ⟨ctx, outs, hrun, hinv⟩

/-- A start on port 0 leaves the resize open: the peer's node is gone and still counted. -/
theorem coapReqTable_resize_after_start :
    ∃ ctx outs, run (tableStep Reference.hostPlatform) (estServerInit .server)
        [.setDtlsSessionMax 2 true, .coapInitStart 0 true, .connected (.inet 40000 0x01020304),
          .setDtlsSessionMax 3 true] = some (ctx, outs) ∧
      ctx.coapReqCnt = 1 ∧ (∀ node ∈ ctx.coapReqArray, node.key = []) ∧ ¬ TableInv ctx := by
  have hrun : ((run (tableStep Reference.hostPlatform) (estServerInit .server)
      [.setDtlsSessionMax 2 true, .coapInitStart 0 true, .connected (.inet 40000 0x01020304),
        .setDtlsSessionMax 3 true]).map fun result =>
          (result.1.coapReqCnt, result.1.coapReqArray)) =
      some (1, List.replicate 3 blank) := by decide
  obtain ⟨⟨ctx, outs⟩, hctx, heq⟩ := Option.map_eq_some_iff.mp hrun
  obtain ⟨hcnt, harray⟩ := Prod.mk.inj heq
  refine ⟨ctx, outs, hctx, hcnt, ?_, ?_⟩
  · intro node hnode
    simp only at harray
    rw [harray] at hnode
    rw [List.eq_of_mem_replicate hnode]
    rfl
  · intro hinv
    have hcount := hinv.count
    simp only at harray hcnt
    rw [hcnt, harray, used_replicate] at hcount
    cases hcount

end LibEst.Coap.TableInvariant
