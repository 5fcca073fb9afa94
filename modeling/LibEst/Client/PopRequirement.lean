import LibEst.Client.ApiCases
import LibEst.Client.ReferenceEnv

/-! Whether the client puts the challenge password in its requests. The server says
so in the attributes it sends, and the context keeps what it has said in one flag,
whichever server that was. -/
namespace LibEst.Client.PopRequirement

open LibEst.Basic LibEst.OpenSsl LibEst.SafeStr LibEst.Lib.ByteString LibEst.Lib.Machine
open LibEst.Lib.Trace
open LibEst.Server.AuthHeader LibEst.Server.CsrAttrs LibEst.Server.Reference
open LibEst.Client.Context LibEst.Client.Http LibEst.Client.Request
open LibEst.Client.Answer LibEst.Client.Enroll LibEst.Client.EnrollCases LibEst.Client.Api
open LibEst.Client.ApiCases LibEst.Client.Reference LibEst.Client.ReferenceEnv

variable {env : ClientEnv} {net : Network} {ctx ctx' : ClientCtx}

section Servers

abbrev EstServer := Bytes × Nat

def serverOf (ctx : ClientCtx) : EstServer := (ctx.estServer, ctx.estPortNum)

/-- The request was written, and something was answered to it. -/
def completed (t : Sent) : Bool := t.exchange.wrote && !t.raw.isEmpty

/-- The answer is a valid list that has the challenge password in it. -/
def callsForPop (env : ClientEnv) (t : Sent) : Bool :=
  match t.answer with
  | some (_, .ok ⟨_, some text⟩) =>
      estAsn1ParseAttributes env.crypto env.asn1 text text.length = (.none, true)
  | _ => false

/-- Which servers call for the challenge password, by the last list of each. -/
def hear (env : ClientEnv) (known : EstServer → Bool) (e : Event) : EstServer → Bool :=
  match e with
  | .sent t =>
      if t.op = .csrattrs ∧ completed t then
        Function.update known (serverOf t.ctx) (callsForPop env t)
      else known
  | _ => known

/-- A certificate request that the client signs has the challenge password in it
where the application or the server calls for it. -/
def PopRight (known : EstServer → Bool) : Event → Prop
  | .sent t => ∀ csr ∈ t.csr, t.privKey ≠ none →
      (hasPop csr = true ↔ t.ctx.clientForcePop = true ∨ known (serverOf t.ctx) = true)
  | _ => True

instance (known : EstServer → Bool) : ∀ e, Decidable (PopRight known e)
  | .sent t => inferInstanceAs (Decidable (∀ csr ∈ t.csr, t.privKey ≠ none →
      (hasPop csr = true ↔ t.ctx.clientForcePop = true ∨ known (serverOf t.ctx) = true)))
  | .slept _ => isTrue trivial
  | .copiedCacerts => isTrue trivial
  | .reloadedTrust => isTrue trivial

/-- The flag speaks of the current server, and no other server is known to call for
the challenge password. -/
def FlagFollows (known : EstServer → Bool) (ctx : ClientCtx) : Prop :=
  ∀ server, known server = true ↔ server = serverOf ctx ∧ ctx.csrPopRequired = true

/-- A part of a run after which the flag of the client follows the server. -/
abbrev Follows (env : ClientEnv) (known : EstServer → Bool) (events : List Event)
    (last : Option ClientCtx) : Prop :=
  Part (hear env) PopRight FlagFollows known events last

variable {known : EstServer → Bool}

theorem FlagFollows.current (h : FlagFollows known ctx) :
    known (serverOf ctx) = ctx.csrPopRequired := by
  rw [Bool.eq_iff_iff, h]
  exact and_iff_right rfl

theorem FlagFollows.congr (h : FlagFollows known ctx) (hserver : serverOf ctx' = serverOf ctx)
    (hflag : ctx'.csrPopRequired = ctx.csrPopRequired) : FlagFollows known ctx' := by
  unfold FlagFollows
  rw [hserver, hflag]
  exact h

theorem FlagFollows.configured (h : FlagFollows known ctx) (hsame : configured ctx' = configured ctx) :
    FlagFollows known ctx' :=
  h.congr (eq_of_configured serverOf (fun _ => rfl) hsame)
    (eq_of_configured ClientCtx.csrPopRequired (fun _ => rfl) hsame)

/-- Without a requirement any server may be the current one. -/
theorem FlagFollows.none (h : FlagFollows known ctx) (hflag : ctx.csrPopRequired = false)
    (hflag' : ctx'.csrPopRequired = false) : FlagFollows known ctx' := by
  intro server
  rw [h server, hflag, hflag']
  simp

/-- What the last list of the current server says. -/
theorem FlagFollows.update (h : FlagFollows known ctx) (hserver : serverOf ctx' = serverOf ctx) :
    FlagFollows (Function.update known (serverOf ctx) ctx'.csrPopRequired) ctx' := by
  intro server
  rw [hserver]
  by_cases hcurrent : server = serverOf ctx
  · rw [hcurrent, Function.update_self]
    exact (and_iff_right rfl).symm
  · rw [Function.update_of_ne hcurrent, h server]
    simp [hcurrent]

end Servers

section Requests

variable {known : EstServer → Bool} {op : EstOperation}

theorem hear_other {t : Sent} (hop : t.op ≠ .csrattrs) : hear env known (.sent t) = known :=
  if_neg fun h => hop h.1

theorem popRight_without {t : Sent} (hcsr : t.csr = none) : PopRight known (.sent t) := by
  intro csr hsome
  rw [hcsr] at hsome
  cases hsome

/-- One request that neither has a certificate request in it nor asks for a list. -/
theorem follows_without {t : Sent} {last : Option ClientCtx} (hcsr : t.csr = none)
    (hop : t.op ≠ .csrattrs) (h : ∀ ctx, last = some ctx → FlagFollows known ctx) :
    Follows env known [.sent t] last := by
  refine ⟨⟨popRight_without hcsr, trivial⟩, ?_⟩
  intro ctx hctx
  change FlagFollows (hear env known (.sent t)) ctx
  rw [hear_other hop]
  exact h ctx hctx

theorem enrollSent_popRight {x : Exchange} {t : Sent} (hflag : FlagFollows known ctx)
    (hsame : configured ctx' = configured ctx) (ht : EnrollSent env x ctx' op t) :
    PopRight known (.sent t) := by
  intro csr hcsr hkey
  obtain ⟨csr', hcsr', hpop⟩ := ht.request
  obtain rfl : csr' = csr := Option.some.inj (hcsr'.symm.trans hcsr)
  have hsent := (enrollSent_configured ht).trans hsame
  have hknown : known (serverOf t.ctx) = ctx'.csrPopRequired := by
    rw [eq_of_configured serverOf (fun _ => rfl) hsent, hflag.current]
    exact (eq_of_configured ClientCtx.csrPopRequired (fun _ => rfl) hsame).symm
  have hforce : t.ctx.clientForcePop = ctx'.clientForcePop := by
    rw [ht.context]
  rw [hpop hkey, hknown, hforce, popRequired, Bool.or_eq_true]
  exact or_comm

theorem enrollCall_follows {result : Traced Event (ClientCtx × Enrolled)}
    (hop : op ≠ .csrattrs) (hflag : FlagFollows known ctx) (h : EnrollCall env net ctx op result) :
    Follows env known result.events (result.value.map Prod.fst) := by
  have hlast (last : ClientCtx) (hvalue : result.value.map Prod.fst = some last) :
      FlagFollows known last := by
    obtain ⟨value, hresult, rfl⟩ := Option.map_eq_some_iff.mp hvalue
    exact hflag.configured ((enrollCall_configured h).2 value hresult)
  have hheard {x : Exchange} {c : ClientCtx} {t : Sent} (ht : EnrollSent env x c op t) :
      hear env known (.sent t) = known := by
    apply hear_other
    rw [ht.operation]
    exact hop
  have hone {t : Sent} (ht : EnrollSent env (net 0) ctx op t) {last : Option ClientCtx}
      (h : ∀ ctx, last = some ctx → FlagFollows known ctx) : Follows env known [.sent t] last := by
    refine ⟨⟨enrollSent_popRight hflag rfl ht, trivial⟩, ?_⟩
    intro ctx hctx
    change FlagFollows (hear env known (.sent t)) ctx
    rw [hheard ht]
    exact h ctx hctx
  cases h with
  | refused => exact part_nil hlast
  | attempted reset hinit hresult =>
    cases hresult with
    | undefined => exact part_nil hlast
    | refused => exact part_nil hlast
    | crashed t ht => exact hone ht hlast
    | once t ht => exact hone ht hlast
    | barred t ht => exact hone ht hlast
    | twice t ht ctx' hanswer hmode u hu =>
      have hsame : configured ctx' = configured ctx :=
        (answer_configured hanswer).trans (enrollSent_configured ht)
      refine ⟨⟨enrollSent_popRight hflag rfl ht, ?_⟩, ?_⟩
      · rw [hheard ht]
        exact ⟨enrollSent_popRight hflag hsame hu, trivial⟩
      · intro last hvalue
        change FlagFollows (hear env (hear env known (.sent t)) (.sent u)) last
        rw [hheard ht, hheard hu]
        exact hlast last hvalue

theorem getCacerts_follows {result : Traced Event (ClientCtx × EstError × Option Nat)}
    (hflag : FlagFollows known ctx) (h : GotCacerts env net ctx result) :
    Follows env known result.events (result.value.map Prod.fst) := by
  have hlast (last : ClientCtx) (hvalue : result.value.map Prod.fst = some last) :
      FlagFollows known last := by
    obtain ⟨value, hresult, rfl⟩ := Option.map_eq_some_iff.mp hvalue
    exact hflag.configured ((getCacerts_configured h).2 value hresult)
  cases h with
  | undefined => exact part_nil hlast
  | refused => exact part_nil hlast
  | sent t hinit hctx hop hauth hcsr =>
    apply follows_without hcsr _ hlast
    rw [hop]
    nofun

end Requests

section Attributes

variable {known : EstServer → Bool}

/-- The list that a server has sent, null where there is none in its answer. -/
def received (ctx : ClientCtx) (x : Exchange) : Option Bytes :=
  match estIoGetResponseInternal ctx .csrattrs x.reads with
  | some (_, .ok buffers) => buffers.cert
  | _ => none

theorem received_any (a b : ClientCtx) (x : Exchange) : received a x = received b x := by
  have hsome (a b : ClientCtx) (text : Bytes) (h : received a x = some text) :
      received b x = some text := by
    unfold received at h ⊢
    split at h
    · rename_i a' buffers hread
      obtain ⟨b', hread'⟩ := response_ok hread b
      rw [hread']
      exact h
    · cases h
  ext text
  exact ⟨hsome a b text, hsome b a text⟩

/-- An answer without a list comes only where the challenge password is not called
for, and what is not a list does not call for it. -/
def SteadyAnswer (env : ClientEnv) (ctx : ClientCtx) (x : Exchange) : Prop :=
  x.wrote = true → x.raw ≠ [] →
    match received ctx x with
    | none => ctx.csrPopRequired = false
    | some text =>
        (estAsn1ParseAttributes env.crypto env.asn1 text text.length).1 ≠ .none →
          (estAsn1ParseAttributes env.crypto env.asn1 text text.length).2 = false

theorem SteadyAnswer.congr {x : Exchange} (h : SteadyAnswer env ctx x)
    (hflag : ctx'.csrPopRequired = ctx.csrPopRequired) : SteadyAnswer env ctx' x := by
  unfold SteadyAnswer
  rw [received_any ctx' ctx, hflag]
  exact h

theorem completed_of_ok {t : Sent} {buffers : Buffers} (h : t.answer = some (ctx', .ok buffers)) :
    completed t = true := by
  have hread := answer_ok_read h
  have hwrote : t.exchange.wrote = true := by
    unfold Sent.answer at h
    split at h
    · assumption
    · cases h
  unfold completed Sent.raw Exchange.raw
  rw [hwrote, Bool.true_and]
  unfold estIoGetResponseInternal at hread
  split at hread
  · cases hread
  · cases hread
  · rename_i c raw hraw
    rw [hraw]
    rfl

theorem received_of_answer {t : Sent} (hop : t.op = .csrattrs) (hwrote : t.exchange.wrote = true) :
    received t.ctx t.exchange =
      match t.answer with
      | some (_, .ok buffers) => buffers.cert
      | _ => none := by
  unfold received Sent.answer
  rw [if_pos hwrote, hop]

/-- An answer without a list, or no answer. -/
theorem quiet_follows {t : Sent} (hflag : FlagFollows known ctx)
    (hsteady : SteadyAnswer env ctx t.exchange) (hserver : serverOf t.ctx = serverOf ctx)
    (hop : t.op = .csrattrs) (hsame : configured ctx' = configured ctx)
    (hcalls : callsForPop env t = false)
    (hnone : ∀ c buffers, t.answer = some (c, .ok buffers) → buffers.cert = none) :
    FlagFollows (hear env known (.sent t)) ctx' := by
  unfold hear
  dsimp only
  split_ifs with hdone
  · obtain ⟨-, hcompleted⟩ := hdone
    rw [completed, Bool.and_eq_true, Bool.not_eq_true', List.isEmpty_eq_false_iff] at hcompleted
    obtain ⟨hwrote, hraw⟩ := hcompleted
    have hreceived : received ctx t.exchange = none := by
      rw [received_any ctx t.ctx, received_of_answer hop hwrote]
      split
      · rename_i c buffers hanswer
        exact hnone c buffers hanswer
      · rfl
    have hfalse := hsteady hwrote hraw
    rw [hreceived] at hfalse
    have hfalse' : ctx'.csrPopRequired = false :=
      (eq_of_configured ClientCtx.csrPopRequired (fun _ => rfl) hsame).trans hfalse
    rw [hcalls, hserver, ← hfalse']
    exact hflag.update (eq_of_configured serverOf (fun _ => rfl) hsame)
  · exact hflag.configured hsame

/-- A list. -/
theorem list_follows {t : Sent} {text : Bytes} {key : Option Bytes} (hflag : FlagFollows known ctx)
    (hsteady : SteadyAnswer env ctx t.exchange) (hserver : serverOf t.ctx = serverOf ctx)
    (hop : t.op = .csrattrs) (hserver' : serverOf ctx' = serverOf ctx)
    (hanswer : t.answer = some (ctx', .ok ⟨key, some text⟩)) :
    FlagFollows (hear env known (.sent t)) (storeCsrattrs env ctx' text).1 := by
  have hcompleted := completed_of_ok hanswer
  have hdone := hcompleted
  rw [completed, Bool.and_eq_true, Bool.not_eq_true', List.isEmpty_eq_false_iff] at hdone
  obtain ⟨hwrote, hraw⟩ := hdone
  have hreceived : received ctx t.exchange = some text := by
    rw [received_any ctx t.ctx, received_of_answer hop hwrote, hanswer]
  have hvalid := hsteady hwrote hraw
  rw [hreceived] at hvalid
  obtain ⟨stored, hstored⟩ := storeCsrattrs_ctx env ctx' text
  have hcalls : callsForPop env t = (storeCsrattrs env ctx' text).1.csrPopRequired := by
    rw [callsForPop, hanswer, hstored]
    dsimp only at hvalid ⊢
    generalize estAsn1ParseAttributes env.crypto env.asn1 text text.length = parsed at hvalid
    obtain ⟨rv, pop⟩ := parsed
    by_cases hrv : rv = .none
    · rw [hrv]
      cases pop <;> rfl
    · have hpop : pop = false := hvalid hrv
      rw [hpop]
      simp
  unfold hear
  dsimp only
  rw [if_pos ⟨hop, hcompleted⟩, hserver, hcalls]
  apply hflag.update
  rw [hstored]
  exact hserver'

theorem getCsrattrs_follows {result : Traced Event (ClientCtx × Except EstError (Option Bytes))}
    (hflag : FlagFollows known ctx) (hsteady : SteadyAnswer env ctx (net 0))
    (h : GotCsrattrs env net ctx result) :
    Follows env known result.events (result.value.map Prod.fst) := by
  cases h with
  | undefined => exact part_nil fun _ h => nomatch h
  | refused =>
    apply part_nil
    rintro _ ⟨⟩
    exact hflag.congr rfl rfl
  | sent t hctx hop hauth hcsr hx =>
    refine ⟨⟨popRight_without hcsr, trivial⟩, ?_⟩
    intro last hvalue
    obtain ⟨_, hinner, rfl⟩ := Option.map_eq_some_iff.mp hvalue
    obtain ⟨⟨ctx', answer⟩, hanswer, rfl⟩ := Option.map_eq_some_iff.mp hinner
    change FlagFollows (hear env known (.sent t)) _
    rw [← hx] at hsteady
    have hsent : configured t.ctx = configured ctx := by
      rw [hctx]
      rfl
    have hserver : serverOf t.ctx = serverOf ctx := eq_of_configured serverOf (fun _ => rfl) hsent
    have hsame : configured ctx' = configured ctx := (answer_configured hanswer).trans hsent
    cases answer with
    | error rv =>
      apply quiet_follows hflag hsteady hserver hop hsame
      · rw [callsForPop, hanswer]
      · intro c buffers hok
        rw [hanswer] at hok
        cases hok
    | ok buffers =>
      obtain ⟨key, cert⟩ := buffers
      cases cert with
      | none =>
        apply quiet_follows hflag hsteady hserver hop hsame
        · rw [callsForPop, hanswer]
        · intro c buffers hok
          rw [hanswer] at hok
          cases hok
          rfl
      | some text =>
        exact list_follows hflag hsteady hserver hop
          (eq_of_configured serverOf (fun _ => rfl) hsame) hanswer

end Attributes

section Provisioning

variable {known : EstServer → Bool}

/-- Nothing is heard in events that are no requests. -/
theorem follows_quiet {e : Event} {events : List Event} {last : Option ClientCtx}
    (he : ∀ t, e ≠ .sent t) (h : Follows env known events last) :
    Follows env known (e :: events) last := by
  have hsame : hear env known e = known := by
    cases e with
    | sent t => exact absurd rfl (he t)
    | slept => rfl
    | copiedCacerts => rfl
    | reloadedTrust => rfl
  have hright : PopRight known e := by
    cases e with
    | sent t => exact absurd rfl (he t)
    | slept => trivial
    | copiedCacerts => trivial
    | reloadedTrust => trivial
  refine ⟨⟨hright, ?_⟩, ?_⟩
  · rw [hsame]
    exact h.judged
  · intro ctx hctx
    change FlagFollows (noted (hear env) (hear env known e) events) ctx
    rw [hsame]
    exact h.left ctx hctx

theorem provisionEnroll_follows {result : Traced Event (ClientCtx × Provisioned)}
    (hflag : FlagFollows known ctx) (hsteady : SteadyAnswer env ctx (net 0))
    (h : ProvisionEnroll env net ctx result) :
    Follows env known result.events (result.value.map Prod.fst) := by
  cases h with
  | stopped hattrs value hresult =>
    apply (getCsrattrs_follows hflag hsteady hattrs).weaken
    intro last hlast
    obtain ⟨⟨last, provisioned⟩, hvalue, rfl⟩ := Option.map_eq_some_iff.mp hlast
    obtain ⟨-, answer, hattrsValue⟩ := hresult last provisioned hvalue
    rw [hattrsValue, Option.map_some]
  | enrolled hattrs mid answer hvalue hanswer hresult =>
    have hfirst := getCsrattrs_follows hflag hsteady hattrs
    have hmid := hfirst.left mid (by rw [hvalue, Option.map_some])
    have hop : EstOperation.simpleEnroll ≠ .csrattrs := nofun
    rw [Option.map_map]
    exact hfirst.append (enrollCall_follows hop hmid hresult)

theorem provisionCall_follows {result : Traced Event (ClientCtx × Provisioned)}
    (hflag : FlagFollows known ctx) (hsteady : SteadyAnswer env ctx (net 1))
    (h : ProvisionCall env net ctx result) :
    Follows env known result.events (result.value.map Prod.fst) := by
  cases h with
  | refused =>
    apply part_nil
    rintro _ ⟨⟩
    exact hflag
  | stopped hcerts value hresult =>
    apply (getCacerts_follows hflag hcerts).weaken
    intro last hlast
    obtain ⟨⟨last, provisioned⟩, hvalue, rfl⟩ := Option.map_eq_some_iff.mp hlast
    obtain ⟨-, rv, len, hcertsValue⟩ := hresult last provisioned hvalue
    rw [hcertsValue, Option.map_some]
  | copied hcerts mid len hvalue =>
    have hfirst := getCacerts_follows hflag hcerts
    have hmid := hfirst.left mid (by rw [hvalue, Option.map_some])
    apply hfirst.append
    refine follows_quiet (by intro t h; cases h) ?_
    apply part_nil
    rintro _ ⟨⟩
    exact hmid.congr rfl rfl
  | reloaded hcerts mid len hvalue pem hresult =>
    have hfirst := getCacerts_follows hflag hcerts
    have hmid := hfirst.left mid (by rw [hvalue, Option.map_some])
    have hpop : mid.csrPopRequired = ctx.csrPopRequired :=
      eq_of_configured ClientCtx.csrPopRequired (fun _ => rfl)
        ((getCacerts_configured hcerts).2 _ hvalue)
    generalize hloaded : { mid with trustedCerts := pem, estClientInitialized := true } = loaded
      at hresult
    have hserver : serverOf loaded = serverOf mid := by rw [← hloaded]; rfl
    have hloadedPop : loaded.csrPopRequired = mid.csrPopRequired := by rw [← hloaded]
    have hrest := provisionEnroll_follows (hmid.congr hserver hloadedPop)
      (hsteady.congr (hloadedPop.trans hpop)) hresult
    exact hfirst.append (follows_quiet (by intro t h; cases h)
      (follows_quiet (by intro t h; cases h) hrest))

end Provisioning

section Runs

variable {known : EstServer → Bool}

/-- The exchange in which a call asks for attributes. -/
def attributesAt : Call → Option Nat
  | .getCsrattrs => some 0
  | .provisionCert _ _ => some 1
  | _ => none

/-- Where the challenge password is called for, the server stays the same and
answers with lists; and what is not a list does not call for it. -/
def Steady (env : ClientEnv) (client : ClientState) (input : Input) : Prop :=
  ∀ ctx, client = some ctx →
    (∀ n, attributesAt input.1 = some n → SteadyAnswer env ctx (input.2 n)) ∧
      ∀ server port pathSegment, input.1 = .setServer (some server) port pathSegment →
        AcceptsServer ctx server port → ctx.csrPopRequired = true →
          (strcpyS estMaxServernameLen server [], port.toNat) = serverOf ctx

theorem settings_follows {call : Call} (hflag : FlagFollows known ctx)
    (hok : Steady env (some ctx) (call, net)) (h : Adjusted call ctx ctx') :
    FlagFollows known ctx' := by
  obtain ⟨hserver, hport⟩ | ⟨server, port, pathSegment, rfl, haccepts, hserver, hport⟩ := h.server
  · apply hflag.congr _ h.csrPopRequired
    rw [serverOf, hserver, hport, serverOf]
  · cases hpop : ctx.csrPopRequired with
    | false => exact hflag.none hpop (h.csrPopRequired.trans hpop)
    | true =>
      have hsame := (hok ctx rfl).2 server port pathSegment rfl haccepts hpop
      apply hflag.congr _ h.csrPopRequired
      rw [← hsame, serverOf, hserver, hport]

theorem copyEnrolledCert_configured (ctx : ClientCtx) :
    configured (estClientCopyEnrolledCert ctx).1 = configured ctx := by
  unfold estClientCopyEnrolledCert
  split
  · rfl
  · split <;> rfl

theorem copyServerGeneratedKey_configured (ctx : ClientCtx) :
    configured (estClientCopyServerGeneratedKey ctx).1 = configured ctx := by
  unfold estClientCopyServerGeneratedKey
  split
  · rfl
  · split <;> rfl

theorem follows_nil (h : FlagFollows known ctx') : Follows env known [] (some ctx') := by
  apply part_nil
  rintro _ ⟨⟩
  exact h

theorem enrollOperation_ne {call : Call} {op : EstOperation} (h : enrollOperation call = some op) :
    op ≠ .csrattrs := by
  cases call <;> cases h <;> nofun

theorem invoked_follows {call : Call} {result : Traced Event (ClientCtx × Reply)}
    (hflag : FlagFollows known ctx) (hok : Steady env (some ctx) (call, net))
    (h : Invoked env net ctx call result) :
    Follows env known result.events (result.value.map Prod.fst) := by
  have hsteady := (hok ctx rfl).1
  cases h with
  | settings call ctx' rv hadjusted => exact follows_nil (settings_follows hflag hok hadjusted)
  | getCacerts hcerts =>
    rw [Option.map_map]
    exact getCacerts_follows hflag hcerts
  | copyCacerts hcopy =>
    cases hcopy with
    | refused => exact follows_nil hflag
    | copied =>
      refine follows_quiet (by intro t h; cases h) (follows_nil ?_)
      exact hflag.congr rfl rfl
  | getCsrattrs hattrs =>
    rw [Option.map_map]
    exact getCsrattrs_follows hflag (hsteady 0 rfl) hattrs
  | enroll call op hop hcall =>
    rw [Option.map_map]
    exact enrollCall_follows (enrollOperation_ne hop) hflag hcall
  | uncopied => exact follows_nil hflag
  | provisionCert cn newPublicKey hcall =>
    rw [Option.map_map]
    exact provisionCall_follows hflag (hsteady 1 rfl) hcall
  | copyEnrolledCert => exact follows_nil (hflag.configured (copyEnrolledCert_configured ctx))
  | copyServerGeneratedKey =>
    exact follows_nil (hflag.configured (copyServerGeneratedKey_configured ctx))

theorem step_follows {client next : ClientState} {input : Input} {out : Output}
    (hflag : ∀ ctx, client = some ctx → FlagFollows known ctx) (hok : Steady env client input)
    (h : step env client input = some (next, out)) : Follows env known out.events next := by
  cases client with
  | none =>
    cases h
    exact part_nil fun _ h => nomatch h
  | some ctx =>
    cases h
    exact invoked_follows (hflag ctx rfl) hok (invoke_cases env input.2 ctx input.1)

/-- In a run in which the requirement is withdrawn by lists only, and by no change
of the server, a certificate request has the challenge password in it exactly
where the application forces it, or where the last list of the current server has
called for it. -/
theorem pop_follows_server {ctx : ClientCtx} {last : ClientState} {inputs : List Input}
    {outs : List Output} (hfresh : ctx.csrPopRequired = false)
    (hok : Guarded (step env) (Steady env) (some ctx) inputs)
    (h : run (step env) (some ctx) inputs = some (last, outs)) :
    ∀ front t back csr, allEvents outs = front ++ .sent t :: back → t.csr = some csr →
      t.privKey ≠ none → (hasPop csr = true ↔ t.ctx.clientForcePop = true ∨
        noted (hear env) (fun _ => false) front (serverOf t.ctx) = true) := by
  have hkeep (past : List Input) (before : List Output) (s : ClientState) (i : Input)
      (next : ClientState) (out : Output)
      (hinv : Follows env (fun _ => false) (allEvents before) s) (hstep : Steady env s i)
      (hout : step env s i = some (next, out)) :
      Follows env (fun _ => false) (allEvents (before ++ [out])) next := by
    rw [allEvents_concat]
    exact hinv.append (step_follows hinv.left hstep hout)
  have hstart : Follows env (fun _ => false) (allEvents []) (some ctx) := by
    apply follows_nil
    intro server
    simp [hfresh]
  have hall := (run_history hkeep hstart hok h).judged
  intro front t back csr hevents hcsr hkey
  rw [hevents] at hall
  exact hall.at csr hcsr hkey

/-- A list that has the challenge password in it. -/
def popList : Exchange :=
  answering (ascii ("HTTP/1.1 200 OK\r\nContent-Type: application/csrattrs\r\n" ++
    "Content-Length: 20\r\n\r\nMAsGCSqGSIb3DQEJBw=="))

/-- A device that asks what it has to do, and enrolls. -/
def askedRun : List Input :=
  [(.getCsrattrs, serving popList unreachable),
    (.enroll (ascii "dev") (some deviceKey), serving noContentAnswer unreachable)]

theorem pop_follows_list : ∃ last outs,
    run (step clientEnv) (some hostCtx) askedRun = some (last, outs) ∧
      ∀ front t back csr, allEvents outs = front ++ .sent t :: back → t.csr = some csr →
        t.privKey ≠ none → (hasPop csr = true ↔ t.ctx.clientForcePop = true ∨
          noted (hear clientEnv) (fun _ => false) front (serverOf t.ctx) = true) := by
  have hreceived : received hostCtx popList = some (ascii "MAsGCSqGSIb3DQEJBw==") := by
    decide +kernel
  have hvalid : (estAsn1ParseAttributes clientEnv.crypto clientEnv.asn1
      (ascii "MAsGCSqGSIb3DQEJBw==") (ascii "MAsGCSqGSIb3DQEJBw==").length).1 = .none := by
    decide +kernel
  have hsteady : SteadyAnswer clientEnv hostCtx popList := by
    intro _ _
    rw [hreceived]
    exact fun hrv => absurd hvalid hrv
  have hok : Guarded (step clientEnv) (Steady clientEnv) (some hostCtx) askedRun := by
    refine ⟨?_, fun _ _ _ => ⟨?_, fun _ _ _ => trivial⟩⟩
    · rintro ctx ⟨⟩
      refine ⟨?_, fun _ _ _ h => (nomatch h)⟩
      rintro n ⟨⟩
      exact hsteady
    · intro ctx _
      exact ⟨fun _ h => (nomatch h), fun _ _ _ h => (nomatch h)⟩
  obtain ⟨last, outs, hrun⟩ := run_exists clientEnv (some hostCtx) askedRun
  exact ⟨last, outs, hrun, pop_follows_server rfl hok hrun⟩

/-- A server that first calls for the challenge password, and then for nothing. -/
def withdrawnRun : List Input :=
  [(.getCsrattrs, serving popList unreachable),
    (.getCsrattrs, serving noContentAnswer unreachable),
    (.enroll (ascii "dev") (some deviceKey), serving noContentAnswer unreachable)]

theorem withdrawnRun_judged :
    (run (step clientEnv) (some hostCtx) withdrawnRun).map (fun result =>
      decide (Judged (hear clientEnv) PopRight (fun _ => false) (allEvents result.2))) =
        some false := by
  decide +kernel

/-- The challenge password is sent although the server no longer calls for it. -/
theorem pop_outlives_list : ∃ inputs last outs,
    run (step clientEnv) (some hostCtx) inputs = some (last, outs) ∧
      ¬ ∀ front t back csr, allEvents outs = front ++ .sent t :: back → t.csr = some csr →
        t.privKey ≠ none → (hasPop csr = true ↔ t.ctx.clientForcePop = true ∨
          noted (hear clientEnv) (fun _ => false) front (serverOf t.ctx) = true) := by
  obtain ⟨⟨last, outs⟩, hrun, hjudged⟩ := Option.map_eq_some_iff.mp withdrawnRun_judged
  refine ⟨withdrawnRun, last, outs, hrun, ?_⟩
  intro hall
  apply of_decide_eq_false hjudged
  apply judged_of_forall
  intro front e back hevents
  cases e with
  | sent t => exact fun csr hcsr hkey => hall front t back csr hevents hcsr hkey
  | slept => trivial
  | copiedCacerts => trivial
  | reloadedTrust => trivial

end Runs

end LibEst.Client.PopRequirement
