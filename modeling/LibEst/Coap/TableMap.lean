import Mathlib.Logic.Function.Basic
import LibEst.Coap.ReqTable

/-! What the request table is for: a map of bounded size from peer keys to
nodes. Each operation of the table, run on an array that meets the invariant, is
defined, keeps the invariant and acts on the map as the corresponding map
operation does. -/
namespace LibEst.Coap.TableMap

open LibEst.Basic LibEst.Lib.ByteString LibEst.Lib.SlotArray LibEst.Coap.ReqTable

structure PeerMap where
  capacity : Nat
  inUse : Nat
  entry : Bytes → Option CoapReqNode

def fresh (key : Bytes) (req : EstCoapReq) : CoapReqNode :=
  { blank with key := key, curReq := req }

/-- A request of another kind restarts the node; a reset leaves it alone. -/
def touch (node : CoapReqNode) (req : EstCoapReq) : CoapReqNode :=
  if node.curReq ≠ req ∧ req ≠ .reset then reinitCoapReq node req else node

@[simp] theorem touch_key (node : CoapReqNode) (req : EstCoapReq) :
    (touch node req).key = node.key := by
  unfold touch
  split <;> rfl

@[simp] theorem touch_reset (node : CoapReqNode) : touch node .reset = node := by
  simp [touch]

def PeerMap.put (m : PeerMap) (key : Bytes) (node : CoapReqNode) : PeerMap :=
  { m with entry := Function.update m.entry key (some node) }

def PeerMap.get (m : PeerMap) (key : Bytes) (req : EstCoapReq) : PeerMap × Option CoapReqNode :=
  match m.entry key with
  | some node => (m.put key (touch node req), some (touch node req))
  | none =>
      if m.inUse < m.capacity then
        ({ m.put key (fresh key req) with inUse := m.inUse + 1 }, some (fresh key req))
      else (m, none)

def PeerMap.remove (m : PeerMap) (key : Bytes) : PeerMap :=
  match m.entry key with
  | some _ => { m with inUse := m.inUse - 1, entry := Function.update m.entry key none }
  | none => m

/-- Order, uniqueness, zeroed free nodes and the count, for the whole array. -/
structure TableInv (ctx : CoapCtx) : Prop where
  size : ctx.coapReqArray.length = ctx.curMaxCoapReqArray
  sorted : Sorted CoapReqNode.key ctx.coapReqArray
  wellFormed : WellFormed CoapReqNode.key blank ctx.coapReqArray
  count : ctx.coapReqCnt = used CoapReqNode.key blank ctx.coapReqArray

/-- The map that an array stands for. The empty key marks free nodes. -/
def PeerMap.ofCtx (ctx : CoapCtx) : PeerMap where
  capacity := ctx.curMaxCoapReqArray
  inUse := used CoapReqNode.key blank ctx.coapReqArray
  entry key := if key = [] then none else contents CoapReqNode.key ctx.coapReqArray key

theorem PeerMap.ofCtx_entry (ctx : CoapCtx) {key : Bytes} (hkey : key ≠ []) :
    (PeerMap.ofCtx ctx).entry key = contents CoapReqNode.key ctx.coapReqArray key := by
  simp [PeerMap.ofCtx, hkey]

theorem PeerMap.ofCtx_entry_nil (ctx : CoapCtx) : (PeerMap.ofCtx ctx).entry [] = none := by
  simp [PeerMap.ofCtx]

/-- Every entry of the map sits under its own key. -/
theorem PeerMap.ofCtx_entry_key (ctx : CoapCtx) {key : Bytes} {node : CoapReqNode}
    (h : (PeerMap.ofCtx ctx).entry key = some node) : node.key = key := by
  by_cases hkey : key = []
  · subst hkey
    rw [PeerMap.ofCtx_entry_nil] at h
    cases h
  · rw [PeerMap.ofCtx_entry ctx hkey] at h
    exact contents_key h

theorem PeerMap.get_key (ctx : CoapCtx) {key : Bytes} {req : EstCoapReq} {node : CoapReqNode}
    (h : ((PeerMap.ofCtx ctx).get key req).2 = some node) : node.key = key := by
  unfold PeerMap.get at h
  split at h
  · rename_i old hold
    cases h
    rw [touch_key, PeerMap.ofCtx_entry_key ctx hold]
  · split at h
    · cases h
      rfl
    · cases h

/-- Nothing but the array and the count moves. -/
def SameConfig (ctx next : CoapCtx) : Prop :=
  next = { ctx with coapReqArray := next.coapReqArray, coapReqCnt := next.coapReqCnt }

theorem SameConfig.trans {ctx mid next : CoapCtx} (h₁ : SameConfig ctx mid)
    (h₂ : SameConfig mid next) : SameConfig ctx next := by
  unfold SameConfig at *
  rw [h₂, h₁]

/-- A node pointer and the node it points to, null pointers included. -/
def Handed (ctx : CoapCtx) : Option Nat → Option CoapReqNode → Prop
  | none, none => True
  | some i, some node => ctx.coapReqArray[i]? = some node
  | _, _ => False

private theorem modify_eq_set {xs : List CoapReqNode} {i : Nat} {x : CoapReqNode}
    (h : xs[i]? = some x) (f : CoapReqNode → CoapReqNode) : xs.modify i f = xs.set i (f x) := by
  obtain ⟨hi, rfl⟩ := List.getElem?_eq_some_iff.mp h
  apply List.ext_getElem?
  intro j
  rw [List.getElem?_modify, List.getElem?_set]
  by_cases hij : i = j
  · subst hij
    simp [hi]
  · simp [hij]

section Writes

variable {ctx : CoapCtx} {i : Nat} {node old : CoapReqNode}

/-- What a handler does with the node it was handed: assign its fields. -/
def storeNode (ctx : CoapCtx) (i : Nat) (node : CoapReqNode) : CoapCtx :=
  { ctx with coapReqArray := ctx.coapReqArray.set i node }

theorem storeNode_inv (h : TableInv ctx) (hi : ctx.coapReqArray[i]? = some old)
    (hkey : node.key = old.key) (hold : old.key ≠ []) : TableInv (storeNode ctx i node) where
  size := by simpa [storeNode] using h.size
  sorted := h.sorted.overwrite hi hkey
  wellFormed := h.wellFormed.overwrite hi hkey hold
  count := by
    have hused := used_set CoapReqNode.key blank hi node
    rw [hkey] at hused
    have hcount := h.count
    simp only [storeNode]
    omega

theorem storeNode_ofCtx (h : TableInv ctx) (hi : ctx.coapReqArray[i]? = some old)
    (hkey : node.key = old.key) (hold : old.key ≠ []) :
    PeerMap.ofCtx (storeNode ctx i node) = (PeerMap.ofCtx ctx).put old.key node := by
  have hinv := storeNode_inv h hi hkey hold
  have hused := used_set CoapReqNode.key blank hi node
  rw [hkey] at hused
  simp only [PeerMap.ofCtx, PeerMap.put, storeNode, PeerMap.mk.injEq, true_and]
  refine ⟨by omega, ?_⟩
  funext key
  by_cases hnil : key = []
  · subst hnil
    rw [Function.update_of_ne (Ne.symm hold), if_pos rfl, if_pos rfl]
  · rw [if_neg hnil, contents_set h.wellFormed hi hinv.wellFormed hnil, hkey]
    by_cases heq : old.key = key
    · subst heq
      simp
    · rw [Function.update_of_ne (Ne.symm heq)]
      simp [heq, hnil]

end Writes

section Operations

variable (P : Platform) {ctx : CoapCtx}

/-- The node found under a key is the one the map holds. -/
theorem bsearch_some_entry (h : TableInv ctx) {key : Bytes} (hkey : key ≠ []) {i : Nat}
    (hi : P.sorter.bsearch key ctx.coapReqArray = some i) :
    ∃ node, ctx.coapReqArray[i]? = some node ∧ node.key = key ∧
      (PeerMap.ofCtx ctx).entry key = some node := by
  obtain ⟨node, hnode, hnodeKey⟩ := P.sorter.bsearch_some h.sorted hi
  refine ⟨node, hnode, hnodeKey, ?_⟩
  rw [PeerMap.ofCtx_entry ctx hkey]
  exact (contents_eq_some_iff h.wellFormed hkey).mpr ⟨List.mem_of_getElem? hnode, hnodeKey⟩

theorem bsearch_none_entry (h : TableInv ctx) {key : Bytes} (hkey : key ≠ [])
    (hnone : P.sorter.bsearch key ctx.coapReqArray = none) :
    (PeerMap.ofCtx ctx).entry key = none := by
  rw [PeerMap.ofCtx_entry ctx hkey, contents_eq_none_iff]
  exact P.sorter.bsearch_none h.sorted hnone

/-- A search for the empty key fails only when every node is taken. -/
theorem bsearch_free_none (h : TableInv ctx) (hnone : P.sorter.bsearch [] ctx.coapReqArray = none) :
    ¬ (PeerMap.ofCtx ctx).inUse < (PeerMap.ofCtx ctx).capacity := by
  have hfull := used_eq_length CoapReqNode.key blank (P.sorter.bsearch_none h.sorted hnone)
  simp only [PeerMap.ofCtx]
  rw [hfull, h.size]
  exact lt_irrefl _

theorem bsearch_free_some (h : TableInv ctx) {i : Nat}
    (hi : P.sorter.bsearch [] ctx.coapReqArray = some i) :
    ctx.coapReqArray[i]? = some blank ∧
      (PeerMap.ofCtx ctx).inUse < (PeerMap.ofCtx ctx).capacity := by
  obtain ⟨node, hnode, hnodeKey⟩ := P.sorter.bsearch_some h.sorted hi
  obtain rfl : node = blank := h.wellFormed.free_blank node (List.mem_of_getElem? hnode) hnodeKey
  refine ⟨hnode, ?_⟩
  simp only [PeerMap.ofCtx]
  rw [← h.size]
  refine lt_of_le_of_ne List.countP_le_length fun heq => ?_
  have hne := List.countP_eq_length.mp heq blank (List.mem_of_getElem? hnode)
  simp at hne

/-- Taking a free node for a new key. -/
theorem occupy_spec (h : TableInv ctx) {key : Bytes} (hkey : key ≠ []) (req : EstCoapReq)
    (habsent : ∀ node ∈ ctx.coapReqArray, node.key ≠ key) {free : Nat}
    (hfree : ctx.coapReqArray[free]? = some blank) (next : CoapCtx)
    (harray : next.coapReqArray = P.sorter.qsort (ctx.coapReqArray.set free (fresh key req)))
    (hmax : next.curMaxCoapReqArray = ctx.curMaxCoapReqArray)
    (hcnt : next.coapReqCnt = ctx.coapReqCnt + 1) :
    TableInv next ∧ PeerMap.ofCtx next =
      { (PeerMap.ofCtx ctx).put key (fresh key req) with
        inUse := (PeerMap.ofCtx ctx).inUse + 1 } := by
  have hset : WellFormed CoapReqNode.key blank (ctx.coapReqArray.set free (fresh key req)) :=
    h.wellFormed.occupy hfree hkey habsent
  have hperm := P.sorter.qsort_perm (ctx.coapReqArray.set free (fresh key req))
  have hused : used CoapReqNode.key blank next.coapReqArray =
      used CoapReqNode.key blank ctx.coapReqArray + 1 := by
    have hadd := used_set CoapReqNode.key blank hfree (fresh key req)
    rw [if_pos rfl, if_neg (show (fresh key req).key ≠ blank.key from hkey)] at hadd
    rw [harray, used_perm hperm]
    exact hadd
  constructor
  · refine ⟨?_, ?_, ?_, ?_⟩
    · rw [harray, hperm.length_eq, List.length_set, hmax, h.size]
    · rw [harray]
      exact P.sorter.qsort_sorted _
    · rw [harray]
      exact hset.perm hperm.symm
    · rw [hcnt, hused, h.count]
      omega
  · simp only [PeerMap.ofCtx, PeerMap.put, PeerMap.mk.injEq]
    refine ⟨hmax, hused, ?_⟩
    funext k
    by_cases hnil : k = []
    · subst hnil
      rw [Function.update_of_ne hkey.symm, if_pos rfl, if_pos rfl]
    · rw [if_neg hnil, harray, contents_perm (hset.perm hperm.symm) hperm hnil,
        contents_set h.wellFormed hfree hset hnil]
      by_cases heq : key = k
      · subst heq
        simp [fresh]
      · rw [Function.update_of_ne (Ne.symm heq)]
        have hblank : blank.key ≠ k := Ne.symm hnil
        simp [fresh, heq, hnil, hblank]

theorem getCoapReq_spec (h : TableInv ctx) (hmode : ctx.transportMode = .coap) {addr : SockAddr}
    {key : Bytes} (hsearch : searchKey P addr = some key) (hkey : key ≠ []) (req : EstCoapReq) :
    ∃ next pointer, getCoapReq P ctx addr req = some (next, pointer) ∧ TableInv next ∧
      SameConfig ctx next ∧ PeerMap.ofCtx next = ((PeerMap.ofCtx ctx).get key req).1 ∧
      Handed next pointer ((PeerMap.ofCtx ctx).get key req).2 ∧ (pointer = none → next = ctx) := by
  unfold getCoapReq
  rw [if_neg (by simp [hmode]), hsearch]
  simp only [h.size, ne_eq, not_true_eq_false, if_false]
  cases hfound : P.sorter.bsearch key ctx.coapReqArray with
  | some i =>
    obtain ⟨node, hnode, rfl, hentry⟩ := bsearch_some_entry P h hkey hfound
    have harray : (ctx.coapReqArray.modify i fun node =>
        if node.curReq ≠ req ∧ req ≠ .reset then reinitCoapReq node req else node) =
        ctx.coapReqArray.set i (touch node req) := modify_eq_set hnode _
    have hinv := storeNode_inv h hnode (touch_key node req) hkey
    have hmap := storeNode_ofCtx h hnode (touch_key node req) hkey
    have hhanded : (ctx.coapReqArray.set i (touch node req))[i]? = some (touch node req) := by
      rw [List.getElem?_set_self (List.getElem?_eq_some_iff.mp hnode).1]
    refine ⟨storeNode ctx i (touch node req), some i, ?_, hinv, rfl, ?_, ?_, by simp⟩
    · simp only [storeNode, ← harray, ne_eq]
    · rw [hmap, PeerMap.get, hentry]
    · rw [PeerMap.get, hentry]
      exact hhanded
  | none =>
    have hentry := bsearch_none_entry P h hkey hfound
    cases hfree : P.sorter.bsearch [] ctx.coapReqArray with
    | none =>
      have hfull := bsearch_free_none P h hfree
      refine ⟨ctx, none, rfl, h, rfl, ?_, ?_, fun _ => rfl⟩
      · rw [PeerMap.get, hentry]
        simp [hfull]
      · rw [PeerMap.get, hentry]
        simp [hfull, Handed]
    | some free =>
      obtain ⟨hblank, hroom⟩ := bsearch_free_some P h hfree
      have hset : (ctx.coapReqArray.modify free fun node =>
          { node with key := key, curReq := req }) =
          ctx.coapReqArray.set free (fresh key req) := modify_eq_set hblank _
      obtain ⟨hinv, hmap⟩ := occupy_spec P h hkey req
        (P.sorter.bsearch_none h.sorted hfound) hblank
        { ctx with
          coapReqArray := P.sorter.qsort (ctx.coapReqArray.set free (fresh key req))
          coapReqCnt := ctx.coapReqCnt + 1 } rfl rfl rfl
      simp only [hset]
      cases hagain : P.sorter.bsearch key
          (P.sorter.qsort (ctx.coapReqArray.set free (fresh key req))) with
      | none =>
        -- impossible: the key has just been entered
        have hgone := bsearch_none_entry P hinv hkey hagain
        rw [hmap] at hgone
        simp [PeerMap.put] at hgone
      | some i =>
        obtain ⟨node, hnode, -, hthere⟩ := bsearch_some_entry P hinv hkey hagain
        refine ⟨_, some i, rfl, hinv, rfl, ?_, ?_, by simp⟩
        · rw [hmap, PeerMap.get, hentry]
          simp [hroom]
        · rw [hmap] at hthere
          simp only [PeerMap.put, Function.update_self, Option.some.injEq] at hthere
          rw [PeerMap.get, hentry]
          subst hthere
          simpa only [hroom, if_true, Handed] using hnode

/-- A peer that is in the table gets its own node, which stays where it is. -/
theorem getCoapReq_found (h : TableInv ctx) (hmode : ctx.transportMode = .coap) {addr : SockAddr}
    {key : Bytes} (hsearch : searchKey P addr = some key) {node : CoapReqNode}
    (hnode : (PeerMap.ofCtx ctx).entry key = some node) (req : EstCoapReq) :
    ∃ i, ctx.coapReqArray[i]? = some node ∧
      getCoapReq P ctx addr req = some (storeNode ctx i (touch node req), some i) := by
  have hkey := searchKey_ne_nil P hsearch
  cases hfound : P.sorter.bsearch key ctx.coapReqArray with
  | none =>
    rw [bsearch_none_entry P h hkey hfound] at hnode
    cases hnode
  | some i =>
    obtain ⟨found, hi, -, hentry⟩ := bsearch_some_entry P h hkey hfound
    obtain rfl : found = node := Option.some.inj (hentry.symm.trans hnode)
    have harray : (ctx.coapReqArray.modify i fun node =>
        if node.curReq ≠ req ∧ req ≠ .reset then reinitCoapReq node req else node) =
        ctx.coapReqArray.set i (touch found req) := modify_eq_set hi _
    refine ⟨i, hi, ?_⟩
    simp only [getCoapReq, hmode, hsearch, h.size, hfound, ne_eq, not_true_eq_false, if_false,
      storeNode, ← harray]

/-- Giving a node back. -/
theorem vacate_spec (h : TableInv ctx) {i : Nat} {node : CoapReqNode}
    (hi : ctx.coapReqArray[i]? = some node) (hkey : node.key ≠ []) (next : CoapCtx)
    (harray : next.coapReqArray = P.sorter.qsort (ctx.coapReqArray.set i blank))
    (hmax : next.curMaxCoapReqArray = ctx.curMaxCoapReqArray)
    (hcnt : next.coapReqCnt = ctx.coapReqCnt - 1) :
    TableInv next ∧ PeerMap.ofCtx next = (PeerMap.ofCtx ctx).remove node.key := by
  have hset : WellFormed CoapReqNode.key blank (ctx.coapReqArray.set i blank) :=
    h.wellFormed.vacate hi
  have hperm := P.sorter.qsort_perm (ctx.coapReqArray.set i blank)
  have hentry : (PeerMap.ofCtx ctx).entry node.key = some node := by
    rw [PeerMap.ofCtx_entry ctx hkey]
    exact (contents_eq_some_iff h.wellFormed hkey).mpr ⟨List.mem_of_getElem? hi, rfl⟩
  have hused : used CoapReqNode.key blank next.coapReqArray + 1 =
      used CoapReqNode.key blank ctx.coapReqArray := by
    have hdrop := used_set CoapReqNode.key blank hi blank
    rw [if_pos rfl, if_neg (show node.key ≠ blank.key from hkey)] at hdrop
    rw [harray, used_perm hperm]
    exact hdrop
  constructor
  · refine ⟨?_, ?_, ?_, ?_⟩
    · rw [harray, hperm.length_eq, List.length_set, hmax, h.size]
    · rw [harray]
      exact P.sorter.qsort_sorted _
    · rw [harray]
      exact hset.perm hperm.symm
    · rw [hcnt, h.count]
      omega
  · rw [PeerMap.remove, hentry]
    simp only [PeerMap.ofCtx, PeerMap.mk.injEq]
    refine ⟨hmax, by omega, ?_⟩
    funext k
    by_cases hnil : k = []
    · subst hnil
      rw [Function.update_of_ne hkey.symm, if_pos rfl, if_pos rfl]
    · rw [if_neg hnil, harray, contents_perm (hset.perm hperm.symm) hperm hnil,
        contents_set h.wellFormed hi hset hnil, if_neg (show blank.key ≠ k from Ne.symm hnil)]
      by_cases heq : node.key = k
      · subst heq
        simp
      · rw [Function.update_of_ne (Ne.symm heq)]
        simp [heq, hnil]

theorem removeCoapReq_spec (h : TableInv ctx) {i : Nat} {node : CoapReqNode}
    (hi : ctx.coapReqArray[i]? = some node) (hkey : node.key ≠ []) :
    ∃ next, removeCoapReq P ctx (some i) = some (next, true) ∧ TableInv next ∧
      SameConfig ctx next ∧ PeerMap.ofCtx next = (PeerMap.ofCtx ctx).remove node.key := by
  have hcnt : ctx.coapReqCnt ≠ 0 := by
    have hpos : 0 < used CoapReqNode.key blank ctx.coapReqArray :=
      List.countP_pos_iff.mpr ⟨node, List.mem_of_getElem? hi, decide_eq_true hkey⟩
    rw [h.count]
    omega
  cases hfound : P.sorter.bsearch node.key ctx.coapReqArray with
  | none => exact absurd rfl (P.sorter.bsearch_none h.sorted hfound node (List.mem_of_getElem? hi))
  | some j =>
    obtain ⟨other, hother, hotherKey⟩ := P.sorter.bsearch_some h.sorted hfound
    obtain rfl : j = i := h.wellFormed.index_unique hother hi hotherKey (hotherKey ▸ hkey)
    obtain ⟨hinv, hmap⟩ := vacate_spec P h hi hkey
      { ctx with
        coapReqArray := P.sorter.qsort (ctx.coapReqArray.set j blank)
        coapReqCnt := ctx.coapReqCnt - 1 } rfl rfl rfl
    refine ⟨_, ?_, hinv, rfl, hmap⟩
    simp [removeCoapReq, hi, hcnt, h.size, hfound]

end Operations

end LibEst.Coap.TableMap
