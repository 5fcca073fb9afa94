import LibEst.Lib.Machine
import LibEst.Lib.SlotArray
import Mathlib.Data.UInt

/-! The client contexts of the proxies in one process. Every proxy context owns an
array with a node for each thread that has talked upstream; how many nodes of an
array are searched, sorted and cleaned up is one variable of the whole file. An
outer `none` is undefined behaviour of the source. Allocation is taken to succeed,
except where `est_client_init` reports that it did not. -/
namespace LibEst.Proxy.ClientTable

open LibEst.Lib.Machine LibEst.Lib.SlotArray

/-- `CLIENT_CTX_LU_NODE_T`; a client context is named by when it was allocated. -/
structure LuNode where
  threadid : UInt64
  clientCtx : Option Nat
  deriving DecidableEq

def blank : LuNode := { threadid := 0, clientCtx := none }

structure Platform where
  sorter : Sorter LuNode.threadid
  getpid : UInt64

variable (P : Platform)

/-- A thread by its `pthread_self`, an address that the process id never wraps to zero. -/
def Thread : Type := { self : UInt64 // self + P.getpid ≠ 0 }

def Thread.id {P : Platform} (thread : Thread P) : UInt64 := thread.val + P.getpid

instance : DecidableEq (Thread P) := inferInstanceAs (DecidableEq (Subtype _))

theorem Thread.id_injective {P : Platform} {t u : Thread P} (h : t.id = u.id) : t = u :=
  Subtype.ext ((UInt64.add_left_inj _).mp h)

def initialProxyClientCtxs : Nat := 8

structure Process where
  /-- `cur_max_ctx_array`, shared by all proxy contexts. -/
  curMaxCtxArray : Nat
  /-- `client_ctx_array` of every proxy context there was, null after clean-up. -/
  clientCtxArrays : List (Option (List LuNode))
  /-- How many client contexts were allocated. -/
  created : Nat
  /-- The calls of `est_destroy` on client contexts, in order. -/
  destroyed : List Nat
  deriving DecidableEq

def start : Process where
  curMaxCtxArray := initialProxyClientCtxs
  clientCtxArrays := []
  created := 0
  destroyed := []

/-- How far the preparation of a new client context gets: `est_client_init` may
return a null pointer, and each of `est_client_set_auth`, `est_client_set_server`
and `est_client_set_read_timeout` may refuse. (The callback is always accepted.) -/
inductive Setup where
  | noContext
  | refused
  | ready
  deriving DecidableEq

/-- The search for an empty node, with the array doubled when there is none. -/
def makeRoom (curMax : Nat) (array : List LuNode) : Option (Nat × List LuNode × Nat) :=
  match P.sorter.bsearch 0 array with
  | some empty => some (curMax, array, empty)
  | none =>
      if 2 * curMax < 2 ^ 31 then
        let grown := P.sorter.qsort (array ++ List.replicate curMax blank)
        (P.sorter.bsearch 0 grown).map fun empty => (2 * curMax, grown, empty)
      else none

/-- `get_client_ctx` on the array of proxy context `proxy`. The count never shrinks,
so an array is never longer than what is searched; a shorter one is overrun. -/
def getClientCtx (s : Process) (proxy : Nat) (array : List LuNode) (threadid : UInt64)
    (setup : Setup) : Option (Process × Option Nat) :=
  if array.length < s.curMaxCtxArray then none
  else
    match P.sorter.bsearch threadid array with
    | some found => (array[found]?).map fun node => (s, node.clientCtx)
    | none =>
        match setup with
        | .noContext => some (s, none)
        | .refused =>
            some ({ s with created := s.created + 1, destroyed := s.destroyed ++ [s.created] }, none)
        | .ready =>
            (makeRoom P s.curMaxCtxArray array).map fun (curMax, room, empty) =>
              let filled := room.set empty { threadid := threadid, clientCtx := some s.created }
              ({ s with
                  curMaxCtxArray := curMax
                  clientCtxArrays := s.clientCtxArrays.set proxy (some (P.sorter.qsort filled))
                  created := s.created + 1 }, some s.created)

/-- `proxy_cleanup`: the contexts it destroys. -/
def proxyCleanup (s : Process) (proxy : Nat) (array : List LuNode) :
    Option (Process × List Nat) :=
  if array.length < s.curMaxCtxArray then none
  else
    let ctxs := array.filterMap LuNode.clientCtx
    some ({ s with
      clientCtxArrays := s.clientCtxArrays.set proxy none
      destroyed := s.destroyed ++ ctxs }, ctxs)

/-- The part of `est_proxy_init` that the other proxies can see. -/
def estProxyInit (s : Process) : Process :=
  { s with
    clientCtxArrays := s.clientCtxArrays ++ [some (List.replicate s.curMaxCtxArray blank)] }

inductive Call where
  | proxyInit
  | getClientCtx (proxy : Nat) (thread : Thread P) (setup : Setup)
  | proxyCleanup (proxy : Nat)

inductive Reply where
  | proxy (index : Nat)
  | client (ctx : Option Nat)
  | cleaned (ctxs : List Nat)
  /-- There is no such proxy context, or not any more: no caller has it to pass. -/
  | noProxy
  deriving DecidableEq

/-- The array of a proxy context that was initialised and not cleaned up. -/
def Process.array (s : Process) (proxy : Nat) : Option (List LuNode) :=
  s.clientCtxArrays[proxy]?.join

def step (s : Process) : Call P → Option (Process × Reply)
  | .proxyInit => some (estProxyInit s, .proxy s.clientCtxArrays.length)
  | .getClientCtx proxy thread setup =>
      match s.array proxy with
      | some array =>
          (getClientCtx P s proxy array thread.id setup).map fun (next, ctx) => (next, .client ctx)
      | none => some (s, .noProxy)
  | .proxyCleanup proxy =>
      match s.array proxy with
      | some array => (proxyCleanup s proxy array).map fun (next, ctxs) => (next, .cleaned ctxs)
      | none => some (s, .noProxy)

/-! ### One array -/

/-- What an array is when `curMax` nodes of it are searched. -/
structure Table (curMax : Nat) (array : List LuNode) : Prop where
  sorted : Sorted LuNode.threadid array
  wellFormed : WellFormed LuNode.threadid blank array
  length : array.length = curMax
  filled : ∀ node ∈ array, node.threadid ≠ 0 → node.clientCtx.isSome

def ctxs (array : List LuNode) : List Nat := array.filterMap LuNode.clientCtx

theorem table_replicate (n : Nat) : Table n (List.replicate n blank) where
  sorted := sorted_replicate n blank
  wellFormed := wellFormed_replicate n
  length := List.length_replicate
  filled node hnode hid := by
    rw [List.eq_of_mem_replicate hnode] at hid
    exact absurd rfl hid

theorem ctxs_replicate (n : Nat) : ctxs (List.replicate n blank) = [] := by
  unfold ctxs
  rw [List.filterMap_eq_nil_iff]
  intro node hnode
  rw [List.eq_of_mem_replicate hnode]
  rfl

theorem ctxs_perm {xs ys : List LuNode} (h : xs.Perm ys) : (ctxs xs).Perm (ctxs ys) :=
  h.filterMap _

/-- Filling a blank node adds its context to those of the array. -/
theorem ctxs_set {array : List LuNode} {i : Nat} (hi : array[i]? = some blank) (id : UInt64)
    (ctx : Nat) :
    (ctxs (array.set i { threadid := id, clientCtx := some ctx })).Perm (ctx :: ctxs array) := by
  have hold := ctxs_perm (perm_cons_eraseIdx hi)
  have hnew := ctxs_perm (set_perm hi { threadid := id, clientCtx := some ctx })
  exact hnew.trans (hold.symm.cons ctx)

variable {P} {curMax : Nat} {array : List LuNode}

/-- An array that may hold the nodes of a table in any order, before it is sorted. -/
theorem Table.qsort {xs : List LuNode} (hwell : WellFormed LuNode.threadid blank xs)
    (hlen : xs.length = curMax) (hfilled : ∀ node ∈ xs, node.threadid ≠ 0 → node.clientCtx.isSome) :
    Table curMax (P.sorter.qsort xs) where
  sorted := P.sorter.qsort_sorted xs
  wellFormed := hwell.perm (P.sorter.qsort_perm xs).symm
  length := (P.sorter.qsort_perm xs).length_eq.trans hlen
  filled node hnode := hfilled node ((P.sorter.qsort_perm xs).mem_iff.mp hnode)

theorem Table.bsearch_blank (h : Table curMax array) {i : Nat}
    (hfound : P.sorter.bsearch 0 array = some i) : array[i]? = some blank := by
  obtain ⟨node, hi, hid⟩ := P.sorter.bsearch_some h.sorted hfound
  rw [hi, h.wellFormed.free_blank node (List.mem_of_getElem? hi) hid]

/-- Every node of the array is in use, so the next new thread doubles it. -/
def Full (array : List LuNode) : Prop := ∀ node ∈ array, node.threadid ≠ 0

instance : Decidable (Full array) := inferInstanceAs (Decidable (∀ _ ∈ _, _))

/-- Making room keeps all that the array holds and ends at a blank node. -/
theorem makeRoom_spec (h : Table curMax array) (hpos : 0 < curMax)
    (hfits : Full array → 2 * curMax < 2 ^ 31) :
    ∃ curMax' room empty, makeRoom P curMax array = some (curMax', room, empty) ∧
      (curMax' = curMax ∨ Full array) ∧ curMax ≤ curMax' ∧
      Table curMax' room ∧ room[empty]? = some blank ∧ (ctxs room).Perm (ctxs array) ∧
      ∀ id, id ≠ 0 → contents LuNode.threadid room id = contents LuNode.threadid array id := by
  unfold makeRoom
  cases hsearch : P.sorter.bsearch 0 array with
  | some empty =>
    exact ⟨curMax, array, empty, rfl, Or.inl rfl, le_rfl, h, h.bsearch_blank hsearch, .refl _,
      fun _ _ => rfl⟩
  | none =>
    have hfull : Full array := P.sorter.bsearch_none h.sorted hsearch
    simp only [if_pos (hfits hfull)]
    have hperm := P.sorter.qsort_perm (array ++ List.replicate curMax blank)
    have hwell := h.wellFormed.grow curMax
    have hgrown : Table (2 * curMax)
        (P.sorter.qsort (array ++ List.replicate curMax blank)) := by
      apply Table.qsort hwell
      · rw [List.length_append, h.length, List.length_replicate]
        omega
      · intro node hnode hid
        rcases List.mem_append.mp hnode with hnode | hnode
        · exact h.filled node hnode hid
        · rw [List.eq_of_mem_replicate hnode] at hid
          exact absurd rfl hid
    have hblank : blank ∈ P.sorter.qsort (array ++ List.replicate curMax blank) := by
      rw [hperm.mem_iff]
      simp [hpos.ne']
    cases hagain : P.sorter.bsearch 0 (P.sorter.qsort (array ++ List.replicate curMax blank)) with
    | none => exact absurd rfl (P.sorter.bsearch_none hgrown.sorted hagain blank hblank)
    | some empty =>
      refine ⟨2 * curMax, _, empty, rfl, Or.inr hfull, by omega, hgrown,
        hgrown.bsearch_blank hagain, ?_, ?_⟩
      · have hctxs := ctxs_perm hperm
        have hnone := ctxs_replicate curMax
        unfold ctxs at hctxs hnone ⊢
        rwa [List.filterMap_append, hnone, List.append_nil] at hctxs
      · intro id hid
        rw [← contents_perm hwell hperm.symm hid, contents_grow array curMax hid]

/-- The context that an array has for a thread. -/
def held (array : List LuNode) (id : UInt64) : Option Nat :=
  (contents LuNode.threadid array id).bind LuNode.clientCtx

theorem Table.held_isSome (h : Table curMax array) {id : UInt64} (hid : id ≠ 0) {node : LuNode}
    (hnode : contents LuNode.threadid array id = some node) :
    ∃ ctx, node.clientCtx = some ctx ∧ held array id = some ctx := by
  have hkey := contents_key hnode
  have hsome := h.filled node (contents_mem hnode) (hkey ▸ hid)
  obtain ⟨ctx, hctx⟩ := Option.isSome_iff_exists.mp hsome
  refine ⟨ctx, hctx, ?_⟩
  rw [held, hnode, Option.bind_some, hctx]

theorem held_mem_ctxs {id : UInt64} {ctx : Nat} (h : held array id = some ctx) :
    ctx ∈ ctxs array := by
  obtain ⟨node, hnode, hctx⟩ := Option.bind_eq_some_iff.mp h
  exact List.mem_filterMap.mpr ⟨node, contents_mem hnode, hctx⟩

/-- Every context of an array is the one of some thread. -/
theorem Table.mem_ctxs_iff (h : Table curMax array) {ctx : Nat} :
    ctx ∈ ctxs array ↔ ∃ id, id ≠ 0 ∧ held array id = some ctx := by
  constructor
  · intro hmem
    obtain ⟨node, hnode, hctx⟩ := List.mem_filterMap.mp hmem
    have hid : node.threadid ≠ 0 := by
      intro hzero
      rw [h.wellFormed.free_blank node hnode hzero] at hctx
      cases hctx
    refine ⟨node.threadid, hid, ?_⟩
    rw [held, (contents_eq_some_iff h.wellFormed hid).mpr ⟨hnode, rfl⟩, Option.bind_some, hctx]
  · rintro ⟨id, -, hheld⟩
    exact held_mem_ctxs hheld

/-- Storing a new context at a blank node and sorting the array again. -/
theorem Table.store (h : Table curMax array) {i : Nat} (hi : array[i]? = some blank) {id : UInt64}
    (hid : id ≠ 0) (hfresh : contents LuNode.threadid array id = none) (ctx : Nat) :
    let stored := P.sorter.qsort (array.set i { threadid := id, clientCtx := some ctx })
    Table curMax stored ∧ (ctxs stored).Perm (ctx :: ctxs array) ∧
      ∀ other, other ≠ 0 → held stored other = if other = id then some ctx else held array other := by
  intro stored
  have hperm := P.sorter.qsort_perm (array.set i { threadid := id, clientCtx := some ctx })
  have hwell : WellFormed LuNode.threadid blank
      (array.set i { threadid := id, clientCtx := some ctx }) :=
    h.wellFormed.occupy hi hid (contents_eq_none_iff.mp hfresh)
  refine ⟨Table.qsort hwell ?_ ?_, (ctxs_perm hperm).trans (ctxs_set hi id ctx), ?_⟩
  · rw [List.length_set, h.length]
  · intro node hnode hne
    rcases List.mem_or_eq_of_mem_set hnode with hold | rfl
    · exact h.filled node hold hne
    · rfl
  · intro other hother
    rw [held, ← contents_perm hwell hperm.symm hother, contents_set h.wellFormed hi hwell hother]
    by_cases heq : other = id
    · simp [heq]
    · have hblank : blank.threadid ≠ other := fun h => hother h.symm
      simp only [if_neg heq, if_neg (Ne.symm heq), if_neg hblank, held]

/-! ### All proxies of the process -/

section Arrays

variable {s : Process} {proxy : Nat}

theorem array_eq_some_iff : s.array proxy = some array ↔ s.clientCtxArrays[proxy]? = some (some array) := by
  unfold Process.array
  rw [Option.join_eq_some_iff]

/-- The arrays after one of them was replaced. -/
theorem array_set {next : Process} {new : Option (List LuNode)} (h : s.array proxy = some array)
    (hnext : next.clientCtxArrays = s.clientCtxArrays.set proxy new) (other : Nat) :
    next.array other = if other = proxy then new else s.array other := by
  obtain ⟨hlt, -⟩ := List.getElem?_eq_some_iff.mp (array_eq_some_iff.mp h)
  unfold Process.array
  rw [hnext, List.getElem?_set]
  by_cases heq : other = proxy
  · rw [if_pos heq.symm, if_pos heq, if_pos hlt, Option.join_some]
  · rw [if_neg (Ne.symm heq), if_neg heq]

/-- The contexts that are in some array. -/
def Process.live (s : Process) : List Nat := s.clientCtxArrays.flatMap fun array => ctxs (array.getD [])

theorem held_mem_live {ctx : Nat} {id : UInt64} (h : s.array proxy = some array)
    (hheld : held array id = some ctx) : ctx ∈ s.live :=
  List.mem_flatMap.mpr
    ⟨some array, List.mem_of_getElem? (array_eq_some_iff.mp h), held_mem_ctxs hheld⟩

/-- Replacing one array exchanges its contexts for those of the new one. -/
theorem live_set {next : Process} {new : Option (List LuNode)} (h : s.array proxy = some array)
    (hnext : next.clientCtxArrays = s.clientCtxArrays.set proxy new) :
    ∃ others, s.live.Perm (ctxs array ++ others) ∧
      next.live.Perm (ctxs (new.getD []) ++ others) := by
  have hget := array_eq_some_iff.mp h
  refine ⟨(s.clientCtxArrays.eraseIdx proxy).flatMap fun array => ctxs (array.getD []), ?_, ?_⟩
  · have hperm := (perm_cons_eraseIdx hget).flatMap_right fun array => ctxs (array.getD [])
    rwa [List.flatMap_cons] at hperm
  · have hperm := (set_perm hget new).flatMap_right fun array => ctxs (array.getD [])
    rw [List.flatMap_cons] at hperm
    unfold Process.live
    rwa [hnext]

end Arrays

/-- What holds between the calls: every array is a table of the shared size, and
every client context ever allocated is either in one array, once, or was destroyed,
once. -/
structure Sound (s : Process) : Prop where
  positive : 0 < s.curMaxCtxArray
  table : ∀ proxy array, s.array proxy = some array → Table s.curMaxCtxArray array
  ledger : (s.live ++ s.destroyed).Perm (List.range s.created)

theorem start_sound : Sound start where
  positive := by decide
  table proxy array h := by cases h
  ledger := .refl _

theorem Sound.created_not_live {s : Process} (h : Sound s) : s.created ∉ s.live := by
  intro hmem
  have hrange := h.ledger.mem_iff.mp (List.mem_append_left s.destroyed hmem)
  exact absurd (List.mem_range.mp hrange) (Nat.lt_irrefl _)

/-- A call that has to double an array is made while no other proxy context has one,
and the doubled size is still an `int`. -/
def GrowsAlone (s : Process) : Call P → Prop
  | .getClientCtx proxy thread .ready =>
      ∀ array ∈ s.array proxy, contents LuNode.threadid array thread.id = none → Full array →
        2 * s.curMaxCtxArray < 2 ^ 31 ∧ ∀ other, other ≠ proxy → s.array other = none
  | _ => True

instance (s : Process) (proxy : Nat) :
    Decidable (∀ other, other ≠ proxy → s.array other = none) :=
  decidable_of_iff (∀ other < s.clientCtxArrays.length, other ≠ proxy → s.array other = none) (by
    constructor
    · intro h other hne
      by_cases hlt : other < s.clientCtxArrays.length
      · exact h other hlt hne
      · rw [Process.array, List.getElem?_eq_none_iff.mpr (Nat.le_of_not_lt hlt), Option.join_none]
    · intro h other _ hne
      exact h other hne)

instance (s : Process) (call : Call P) : Decidable (GrowsAlone s call) :=
  match call with
  | .proxyInit => .isTrue trivial
  | .getClientCtx _ _ .noContext => .isTrue trivial
  | .getClientCtx _ _ .refused => .isTrue trivial
  | .getClientCtx proxy thread .ready => inferInstanceAs (Decidable (∀ array ∈ s.array proxy,
      contents LuNode.threadid array thread.id = none → Full array →
        2 * s.curMaxCtxArray < 2 ^ 31 ∧ ∀ other, other ≠ proxy → s.array other = none))
  | .proxyCleanup _ => .isTrue trivial

/-! What a bystander knows who sees the calls and the replies: for each proxy context
in use, which client context it has handed to which thread. -/

variable (P) in
abbrev Handed : Type := Nat → Option (Thread P → Option Nat)

def note (handed : Handed P) : Call P → Reply → Handed P
  | .proxyInit, .proxy index => fun p => if p = index then some fun _ => none else handed p
  | .getClientCtx proxy thread _, .client ctx => fun p =>
      if p = proxy then (handed p).map fun known t => if t = thread then ctx else known t
      else handed p
  | .proxyCleanup proxy, .cleaned _ => fun p => if p = proxy then none else handed p
  | _, _ => handed

/-- The replies the bystander expects. A thread that got a client context gets the
same one again; a new one was never given to anybody; and clean-up destroys what was
given out, each context once. -/
def Expected (handed : Handed P) : Call P → Reply → Prop
  | .proxyInit, .proxy index => handed index = none
  | .getClientCtx proxy thread setup, .client ctx => ∃ known, handed proxy = some known ∧
      (∀ same, known thread = some same → ctx = some same) ∧
      (known thread = none →
        if setup = .ready then
          ∃ fresh, ctx = some fresh ∧ ∀ p others t, handed p = some others → others t ≠ some fresh
        else ctx = none)
  | .proxyCleanup proxy, .cleaned ctxs => ∃ known, handed proxy = some known ∧ ctxs.Nodup ∧
      ∀ ctx, ctx ∈ ctxs ↔ ∃ thread, known thread = some ctx
  | .getClientCtx proxy _ _, .noProxy => handed proxy = none
  | .proxyCleanup proxy, .noProxy => handed proxy = none
  | _, _ => False

variable (P) in
/-- What the arrays say has been handed out. -/
def handedOut (s : Process) : Handed P := fun proxy =>
  (s.array proxy).map fun array thread => held array thread.id

section Steps

variable {s : Process}

theorem proxyInit_sound (h : Sound s) :
    Sound (estProxyInit s) ∧
      Expected (handedOut P s) .proxyInit (.proxy s.clientCtxArrays.length) ∧
      handedOut P (estProxyInit s) =
        note (handedOut P s) .proxyInit (.proxy s.clientCtxArrays.length) := by
  have hnew : s.array s.clientCtxArrays.length = none := by simp [Process.array]
  have harray : ∀ proxy, (estProxyInit s).array proxy =
      if proxy = s.clientCtxArrays.length then some (List.replicate s.curMaxCtxArray blank)
      else s.array proxy := by
    intro proxy
    unfold Process.array estProxyInit
    rcases Nat.lt_trichotomy proxy s.clientCtxArrays.length with hlt | heq | hgt
    · rw [List.getElem?_append_left hlt, if_neg hlt.ne]
    · subst heq
      simp
    · have hbeyond : (s.clientCtxArrays ++ [some (List.replicate s.curMaxCtxArray blank)]).length ≤
          proxy := by
        rw [List.length_append, List.length_singleton]
        omega
      rw [if_neg hgt.ne', List.getElem?_eq_none_iff.mpr hbeyond,
        List.getElem?_eq_none_iff.mpr hgt.le]
  refine ⟨⟨h.positive, ?_, ?_⟩, ?_, ?_⟩
  · intro proxy array hproxy
    rw [harray] at hproxy
    split at hproxy
    · cases hproxy
      exact table_replicate _
    · exact h.table proxy array hproxy
  · have hlive : (estProxyInit s).live = s.live := by
      simp [Process.live, estProxyInit, ctxs_replicate]
    rw [hlive]
    exact h.ledger
  · simp [Expected, handedOut, hnew]
  · funext proxy
    simp only [handedOut, note, harray]
    split
    · have hnone : ∀ thread : Thread P, held (List.replicate s.curMaxCtxArray blank) thread.id = none := by
        intro thread
        have hid : thread.id ≠ blank.threadid := thread.property
        rw [held, contents_replicate hid, Option.bind_none]
      simp [hnone]
    · rfl

variable {proxy : Nat}

theorem proxyCleanup_sound (h : Sound s) (hproxy : s.array proxy = some array) :
    ∃ next, proxyCleanup s proxy array = some (next, ctxs array) ∧ Sound next ∧
      Expected (handedOut P s) (.proxyCleanup proxy) (.cleaned (ctxs array)) ∧
      handedOut P next = note (handedOut P s) (.proxyCleanup proxy) (.cleaned (ctxs array)) := by
  have htable := h.table proxy array hproxy
  obtain ⟨next, hnext⟩ : ∃ next : Process, next =
      { s with
        clientCtxArrays := s.clientCtxArrays.set proxy none
        destroyed := s.destroyed ++ ctxs array } := ⟨_, rfl⟩
  have harrays : next.clientCtxArrays = s.clientCtxArrays.set proxy none := by rw [hnext]
  have hcurMax : next.curMaxCtxArray = s.curMaxCtxArray := by rw [hnext]
  have harray := array_set hproxy harrays
  obtain ⟨others, hbefore, hafter⟩ := live_set hproxy harrays
  refine ⟨next, ?_, ⟨hcurMax ▸ h.positive, ?_, ?_⟩, ?_, ?_⟩
  · rw [proxyCleanup, if_neg htable.length.not_lt, hnext]
    rfl
  · intro other array' hother
    rw [harray] at hother
    split at hother
    · cases hother
    · rw [hcurMax]
      exact h.table other array' hother
  · -- the contexts move from the array to the destroyed ones
    have hmoved : (others ++ (s.destroyed ++ ctxs array)).Perm
        (ctxs array ++ others ++ s.destroyed) := by
      rw [← List.append_assoc, List.append_assoc (ctxs array)]
      exact List.perm_append_comm
    have hdestroyed : next.destroyed = s.destroyed ++ ctxs array := by rw [hnext]
    have hcreated : next.created = s.created := by rw [hnext]
    rw [hdestroyed, hcreated]
    calc (next.live ++ (s.destroyed ++ ctxs array)).Perm (others ++ (s.destroyed ++ ctxs array)) :=
          hafter.append_right _
      List.Perm _ (ctxs array ++ others ++ s.destroyed) := hmoved
      List.Perm _ (s.live ++ s.destroyed) := hbefore.symm.append_right _
      List.Perm _ (List.range s.created) := h.ledger
  · refine ⟨fun thread => held array thread.id, by rw [handedOut, hproxy, Option.map_some], ?_, ?_⟩
    · have hnodup : (s.live ++ s.destroyed).Nodup := h.ledger.nodup_iff.mpr List.nodup_range
      exact (List.nodup_append.mp (hbefore.nodup_iff.mp (List.nodup_append.mp hnodup).1)).1
    · intro ctx
      rw [htable.mem_ctxs_iff]
      constructor
      · rintro ⟨id, hid, hheld⟩
        refine ⟨⟨id - P.getpid, by simpa using hid⟩, ?_⟩
        simpa [Thread.id] using hheld
      · rintro ⟨thread, hheld⟩
        exact ⟨thread.id, thread.property, hheld⟩
  · funext other
    simp only [handedOut, note, harray]
    split
    · rfl
    · rfl

/-- A context that the preparation gives up on is allocated and destroyed at once. -/
theorem refused_sound (h : Sound s) :
    Sound { s with created := s.created + 1, destroyed := s.destroyed ++ [s.created] } where
  positive := h.positive
  table := h.table
  ledger := by
    have hone := h.ledger.append_right [s.created]
    rw [List.append_assoc] at hone
    rw [List.range_succ]
    exact hone

/-- A new context stored in the array of one proxy. -/
theorem stored_sound (h : Sound s) (hproxy : s.array proxy = some array) {next : Process}
    {curMax' : Nat} {stored : List LuNode} (hle : s.curMaxCtxArray ≤ curMax')
    (htable : Table curMax' stored)
    (hothers : ∀ other array', other ≠ proxy → s.array other = some array' →
      s.curMaxCtxArray = curMax')
    (hctxs : (ctxs stored).Perm (s.created :: ctxs array))
    (hnext : next = { s with
      curMaxCtxArray := curMax'
      clientCtxArrays := s.clientCtxArrays.set proxy (some stored)
      created := s.created + 1 }) : Sound next := by
  have harrays : next.clientCtxArrays = s.clientCtxArrays.set proxy (some stored) := by rw [hnext]
  have hcurMax : next.curMaxCtxArray = curMax' := by rw [hnext]
  have hcreated : next.created = s.created + 1 := by rw [hnext]
  have hdestroyed : next.destroyed = s.destroyed := by rw [hnext]
  have harray := array_set hproxy harrays
  obtain ⟨others, hbefore, hafter⟩ := live_set hproxy harrays
  refine ⟨hcurMax ▸ h.positive.trans_le hle, ?_, ?_⟩
  · intro other array' hother
    rw [hcurMax]
    rw [harray] at hother
    split at hother
    · cases hother
      exact htable
    · rename_i hne
      rw [← hothers other array' hne hother]
      exact h.table other array' hother
  · rw [hcreated, hdestroyed, List.range_succ]
    calc (next.live ++ s.destroyed).Perm (ctxs stored ++ others ++ s.destroyed) :=
          hafter.append_right _
      List.Perm _ (s.created :: ctxs array ++ others ++ s.destroyed) :=
          (hctxs.append_right _).append_right _
      List.Perm _ (s.created :: (s.live ++ s.destroyed)) :=
          (hbefore.symm.append_right _).cons _
      List.Perm _ (s.created :: List.range s.created) := h.ledger.cons _
      List.Perm _ (List.range s.created ++ [s.created]) := (List.perm_append_singleton _ _).symm

theorem handedOut_stored (hproxy : s.array proxy = some array) {next : Process}
    {stored : List LuNode} {thread : Thread P} {ctx : Nat} (setup : Setup)
    (harrays : next.clientCtxArrays = s.clientCtxArrays.set proxy (some stored))
    (hheld : ∀ other, other ≠ 0 →
      held stored other = if other = thread.id then some ctx else held array other) :
    handedOut P next =
      note (handedOut P s) (.getClientCtx proxy thread setup) (.client (some ctx)) := by
  funext other
  simp only [handedOut, note, array_set hproxy harrays]
  by_cases heq : other = proxy
  · rw [if_pos heq, if_pos heq, heq, hproxy, Option.map_some, Option.map_some]
    apply congrArg some
    funext t
    rw [hheld t.id t.property]
    by_cases hthread : t = thread
    · simp only [if_pos (congrArg Thread.id hthread), if_pos hthread]
    · simp only [if_neg (mt Thread.id_injective hthread), if_neg hthread]
  · rw [if_neg heq, if_neg heq]

/-- A call that leaves the arrays alone and returns what the thread has already. -/
theorem note_known (hproxy : s.array proxy = some array) (thread : Thread P) (setup : Setup) :
    note (handedOut P s) (.getClientCtx proxy thread setup) (.client (held array thread.id)) =
      handedOut P s := by
  funext other
  simp only [handedOut, note]
  by_cases heq : other = proxy
  · rw [if_pos heq, heq, hproxy, Option.map_some, Option.map_some]
    apply congrArg some
    funext t
    by_cases hthread : t = thread
    · simp only [hthread, if_true]
    · simp only [if_neg hthread]
  · rw [if_neg heq]

theorem getClientCtx_sound (h : Sound s) (hproxy : s.array proxy = some array) {thread : Thread P}
    {setup : Setup} (hgrow : GrowsAlone s (.getClientCtx proxy thread setup)) :
    ∃ next ctx, getClientCtx P s proxy array thread.id setup = some (next, ctx) ∧ Sound next ∧
      Expected (handedOut P s) (.getClientCtx proxy thread setup) (.client ctx) ∧
      handedOut P next =
        note (handedOut P s) (.getClientCtx proxy thread setup) (.client ctx) := by
  have htable := h.table proxy array hproxy
  have hid : thread.id ≠ 0 := thread.property
  have hknown : handedOut P s proxy = some fun t => held array t.id := by
    rw [handedOut, hproxy, Option.map_some]
  unfold getClientCtx
  rw [if_neg htable.length.not_lt]
  cases hsearch : P.sorter.bsearch thread.id array with
  | some found =>
    obtain ⟨node, hnode, hkey⟩ := P.sorter.bsearch_some htable.sorted hsearch
    have hcontents : contents LuNode.threadid array thread.id = some node :=
      (contents_eq_some_iff htable.wellFormed hid).mpr ⟨List.mem_of_getElem? hnode, hkey⟩
    obtain ⟨ctx, hctx, hheld⟩ := htable.held_isSome hid hcontents
    refine ⟨s, some ctx, by simp only [hnode, Option.map_some, hctx], h, ⟨_, hknown, ?_, ?_⟩, ?_⟩
    · intro same hsame
      rw [← hheld]
      exact hsame
    · intro hnone
      rw [hheld] at hnone
      cases hnone
    · rw [← hheld, note_known hproxy]
  | none =>
    have hcontents : contents LuNode.threadid array thread.id = none :=
      contents_eq_none_iff.mpr (P.sorter.bsearch_none htable.sorted hsearch)
    have hheld : held array thread.id = none := by rw [held, hcontents, Option.bind_none]
    have hnew : ∀ same ctx, held array thread.id = some same → ctx = some same := by
      intro same ctx hsame
      rw [hheld] at hsame
      cases hsame
    cases setup with
    | noContext =>
      refine ⟨s, none, rfl, h, ⟨_, hknown, fun same => hnew same none, fun _ => rfl⟩, ?_⟩
      rw [← hheld, note_known hproxy]
    | refused =>
      refine ⟨_, none, rfl, refused_sound h, ⟨_, hknown, fun same => hnew same none, fun _ => rfl⟩, ?_⟩
      rw [← hheld, note_known hproxy]
      rfl
    | ready =>
      have halone := hgrow array hproxy hcontents
      obtain ⟨curMax', room, empty, hroom, hsize, hle, hroomTable, hempty, hctxs, hsame⟩ :=
        makeRoom_spec (P := P) htable h.positive fun hfull => (halone hfull).1
      obtain ⟨hstored, hstoredCtxs, hstoredHeld⟩ := hroomTable.store (P := P) hempty hid
        ((hsame thread.id hid).trans hcontents) s.created
      have hothers : ∀ other array', other ≠ proxy → s.array other = some array' →
          s.curMaxCtxArray = curMax' := by
        intro other array' hne hother
        rcases hsize with heq | hfull
        · exact heq.symm
        · rw [(halone hfull).2 other hne] at hother
          cases hother
      refine ⟨_, some s.created, by rw [hroom]; rfl, ?_,
        ⟨_, hknown, fun same => hnew same _, fun _ => ?_⟩, ?_⟩
      · exact stored_sound h hproxy hle hstored hothers (hstoredCtxs.trans (hctxs.cons _)) rfl
      · refine ⟨s.created, rfl, ?_⟩
        intro p others t hp hothers'
        obtain ⟨array', harray', rfl⟩ := Option.map_eq_some_iff.mp hp
        exact h.created_not_live (held_mem_live harray' hothers')
      · refine handedOut_stored hproxy _ rfl ?_
        intro other hother
        rw [hstoredHeld other hother, held, hsame other hother, held]

/-- What a call can do: it returns the context that the thread has, gives up, or makes
a new context. -/
theorem getClientCtx_cases (htable : Table s.curMaxCtxArray array) {next : Process} {id : UInt64}
    (hid : id ≠ 0) {setup : Setup} {ctx : Option Nat}
    (h : getClientCtx P s proxy array id setup = some (next, ctx)) :
    (next = s ∧ (ctx = none ∨ ctx = held array id)) ∨
    (next.created = s.created + 1 ∧ (ctx = none ∨ ctx = some s.created ∧ setup = .ready)) := by
  unfold getClientCtx at h
  rw [if_neg htable.length.not_lt] at h
  cases hsearch : P.sorter.bsearch id array with
  | some found =>
    obtain ⟨node, hnode, hkey⟩ := P.sorter.bsearch_some htable.sorted hsearch
    have hcontents := (contents_eq_some_iff htable.wellFormed hid).mpr
      ⟨List.mem_of_getElem? hnode, hkey⟩
    simp only [hsearch, hnode, Option.map_some, Option.some.injEq, Prod.mk.injEq] at h
    refine Or.inl ⟨h.1.symm, Or.inr ?_⟩
    rw [held, hcontents, Option.bind_some, h.2]
  | none =>
    rw [hsearch] at h
    cases setup with
    | noContext =>
      cases h
      exact Or.inl ⟨rfl, Or.inl rfl⟩
    | refused =>
      cases h
      exact Or.inr ⟨rfl, Or.inl rfl⟩
    | ready =>
      obtain ⟨room, -, hroom⟩ := Option.map_eq_some_iff.mp h
      cases hroom
      exact Or.inr ⟨rfl, Or.inr ⟨rfl, rfl⟩⟩

/-- Where there is only one proxy, a call that is defined grows its array alone. -/
theorem grows_of_defined (htable : Table s.curMaxCtxArray array) (hproxy : s.array proxy = some array)
    (halone : ∀ other, other ≠ proxy → s.array other = none) {thread : Thread P} {setup : Setup}
    {result : Process × Option Nat}
    (h : getClientCtx P s proxy array thread.id setup = some result) :
    GrowsAlone s (.getClientCtx proxy thread setup) := by
  cases setup with
  | noContext => trivial
  | refused => trivial
  | ready =>
    intro array' harray' hfresh hfull
    cases hproxy.symm.trans harray'
    refine ⟨?_, halone⟩
    have hnothing : ∀ key, (∀ node ∈ array, node.threadid ≠ key) →
        P.sorter.bsearch key array = none := by
      intro key hkey
      cases hsearch : P.sorter.bsearch key array with
      | none => rfl
      | some i =>
        obtain ⟨node, hnode, heq⟩ := P.sorter.bsearch_some htable.sorted hsearch
        exact absurd heq (hkey node (List.mem_of_getElem? hnode))
    unfold getClientCtx makeRoom at h
    rw [if_neg htable.length.not_lt, hnothing thread.id (contents_eq_none_iff.mp hfresh),
      hnothing 0 hfull] at h
    by_contra hbig
    rw [if_neg hbig] at h
    cases h

/-- One call: it is defined, keeps the arrays sound and answers as expected. -/
theorem step_sound (h : Sound s) {call : Call P} (hgrow : GrowsAlone s call) :
    ∃ next reply, step P s call = some (next, reply) ∧ Sound next ∧
      Expected (handedOut P s) call reply ∧ handedOut P next = note (handedOut P s) call reply := by
  cases call with
  | proxyInit => exact ⟨_, _, rfl, proxyInit_sound h⟩
  | getClientCtx proxy thread setup =>
    cases hproxy : s.array proxy with
    | none =>
      refine ⟨s, .noProxy, by simp only [step, hproxy], h, ?_, rfl⟩
      rw [Expected, handedOut, hproxy, Option.map_none]
    | some array =>
      obtain ⟨next, ctx, hget, hrest⟩ := getClientCtx_sound h hproxy hgrow
      exact ⟨next, .client ctx, by simp only [step, hproxy, hget, Option.map_some], hrest⟩
  | proxyCleanup proxy =>
    cases hproxy : s.array proxy with
    | none =>
      refine ⟨s, .noProxy, by simp only [step, hproxy], h, ?_, rfl⟩
      rw [Expected, handedOut, hproxy, Option.map_none]
    | some array =>
      obtain ⟨next, hclean, hrest⟩ := proxyCleanup_sound h hproxy
      exact ⟨next, .cleaned (ctxs array), by simp only [step, hproxy, hclean, Option.map_some], hrest⟩

end Steps

variable (P) in
/-- What is asked of the tables after some calls: nothing was read or written outside
an array, all arrays are tables, each client context is where the ledger says, and
every reply was the expected one. -/
def TablesHold (calls : List (Call P)) : Prop :=
  ∃ last replies, run (step P) start calls = some (last, replies) ∧ Sound last ∧
    Observed note Expected (handedOut P start) calls replies

/-- While arrays are doubled by one proxy alone, the tables hold after every call. -/
theorem client_tables_hold {calls : List (Call P)} (h : Guarded (step P) GrowsAlone start calls)
    {front : List (Call P)} (hfront : front <+: calls) : TablesHold P front := by
  obtain ⟨rest, rfl⟩ := hfront
  have hguard := h.append_left
  have hdefined : ∀ s call, Sound s → GrowsAlone s call →
      ∃ next reply, step P s call = some (next, reply) ∧ Sound next := by
    intro s call hs hgrow
    obtain ⟨next, reply, hstep, hnext, -⟩ := step_sound hs hgrow
    exact ⟨next, reply, hstep, hnext⟩
  have heach : ∀ s handed call next reply, (Sound s ∧ handed = handedOut P s) →
      GrowsAlone s call → step P s call = some (next, reply) →
      Expected handed call reply ∧ (Sound next ∧ note handed call reply = handedOut P next) := by
    rintro s handed call next reply ⟨hs, rfl⟩ hgrow hstep
    obtain ⟨next', reply', hstep', hnext, hexpected, hnote⟩ := step_sound hs hgrow
    rw [hstep] at hstep'
    cases hstep'
    exact ⟨hexpected, hnext, hnote.symm⟩
  obtain ⟨last, replies, hrun⟩ := run_defined hdefined start_sound hguard
  refine ⟨last, replies, hrun, ?_, run_observed heach ⟨start_sound, rfl⟩ hguard hrun⟩
  refine run_invariant ?_ start_sound hguard hrun
  intro s call next reply hs hgrow hstep
  exact (heach s _ call next reply ⟨hs, rfl⟩ hgrow hstep).2.1

/-! ### A platform that runs -/

def runningPlatform : Platform where
  sorter := reference LuNode.threadid
  getpid := 1

/-- The thread with the given number, whose stack is a page. -/
def worker (n : Fin 16) : Thread runningPlatform :=
  ⟨4096 * UInt64.ofNat n, by revert n; decide⟩

/-- Nine threads talk upstream through proxy context zero. -/
def nineThreads : List (Call runningPlatform) :=
  [0, 1, 2, 3, 4, 5, 6, 7, 8].map fun n => .getClientCtx 0 (worker n) .ready

/-- The array doubles under the ninth thread of the only proxy; then the proxy goes. -/
theorem client_tables_hold_nine :
    Guarded (step runningPlatform) GrowsAlone start
        (.proxyInit :: nineThreads ++ [.proxyCleanup 0]) ∧
      TablesHold runningPlatform (.proxyInit :: nineThreads ++ [.proxyCleanup 0]) := by
  have hguard : Guarded (step runningPlatform) GrowsAlone start
      (.proxyInit :: nineThreads ++ [.proxyCleanup 0]) := by decide +kernel
  exact ⟨hguard, client_tables_hold hguard (List.prefix_refl _)⟩

/-- With a second proxy context, its array stays short when the first one doubles. -/
theorem second_proxy_overrun :
    ¬ TablesHold runningPlatform
        (.proxyInit :: .proxyInit :: nineThreads ++ [.getClientCtx 1 (worker 0) .ready]) := by
  rintro ⟨last, replies, hrun, -⟩
  have hnone : run (step runningPlatform) start
      (.proxyInit :: .proxyInit :: nineThreads ++ [.getClientCtx 1 (worker 0) .ready]) = none := by
    decide +kernel
  rw [hnone] at hrun
  cases hrun

end LibEst.Proxy.ClientTable
