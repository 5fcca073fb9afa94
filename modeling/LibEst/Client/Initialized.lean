import LibEst.Client.ApiCases
import LibEst.Client.ReferenceEnv

/-! Whether the client is initialized when it sends a request. Copying the
authorities out of the context resets the client, loading them into the trust store
sets it up again, and every call but one looks at the flag between the two. -/
namespace LibEst.Client.Initialized

open LibEst.Basic LibEst.OpenSsl LibEst.Lib.ByteString LibEst.Lib.Machine LibEst.Lib.Trace
open LibEst.Server.Reference
open LibEst.Client.Context LibEst.Client.Http LibEst.Client.Request
open LibEst.Client.Answer LibEst.Client.Enroll LibEst.Client.EnrollCases LibEst.Client.Api
open LibEst.Client.ApiCases LibEst.Client.Reference LibEst.Client.ReferenceEnv

variable {env : ClientEnv} {net : Network} {ctx : ClientCtx} {loaded : Bool}

section Anchors

def anchor (loaded : Bool) (e : Event) : Bool :=
  match e with
  | .copiedCacerts => false
  | .reloadedTrust => true
  | _ => loaded

/-- Whether the trust anchors have been loaded since they were last copied, after a
time at which `loaded` says it. -/
def anchors (loaded : Bool) (events : List Event) : Bool := noted anchor loaded events

/-- A request other than one for authorities leaves an initialized client whose
trust anchors are loaded. -/
def Covered (loaded : Bool) : Event → Prop
  | .sent t => t.op ≠ .cacerts → t.ctx.estClientInitialized = true ∧ loaded = true
  | _ => True

instance (loaded : Bool) : ∀ e, Decidable (Covered loaded e)
  | .sent t => inferInstanceAs (Decidable (t.op ≠ .cacerts →
      t.ctx.estClientInitialized = true ∧ loaded = true))
  | .slept _ => isTrue trivial
  | .copiedCacerts => isTrue trivial
  | .reloadedTrust => isTrue trivial

/-- An initialized client has its trust anchors loaded. -/
def FlagRight (loaded : Bool) (ctx : ClientCtx) : Prop :=
  ctx.estClientInitialized = true → loaded = true

/-- A part of a run after which the flag of the client is right. -/
abbrev Tracks (loaded : Bool) (events : List Event) (last : Option ClientCtx) : Prop :=
  Part anchor Covered FlagRight loaded events last

theorem tracks_copied (loaded : Bool) (ctx : ClientCtx) :
    Tracks loaded [.copiedCacerts] (some { ctx with estClientInitialized := false }) := by
  refine ⟨⟨trivial, trivial⟩, ?_⟩
  rintro _ ⟨⟩ ⟨⟩

theorem tracks_reloaded (loaded : Bool) (last : Option ClientCtx) :
    Tracks loaded [.reloadedTrust] last :=
  ⟨⟨trivial, trivial⟩, fun _ _ _ => rfl⟩

end Anchors

section Requests

/-- Nothing but requests. -/
def OnlySent (events : List Event) : Prop := ∀ e ∈ events, ∃ t, e = .sent t

theorem onlySent_one (t : Sent) : OnlySent [.sent t] := by
  intro e he
  exact ⟨t, List.mem_singleton.mp he⟩

theorem onlySent_nil : OnlySent [] := fun _ h => absurd h List.not_mem_nil

theorem noted_onlySent {events : List Event} (h : OnlySent events) :
    noted anchor loaded events = loaded := by
  apply noted_eq_self
  intro e he loaded
  obtain ⟨t, rfl⟩ := h e he
  rfl

/-- Requests of an initialized client. -/
theorem tracks_sent {events : List Event} {last : Option ClientCtx} (honly : OnlySent events)
    (hsent : SentAs ctx events) (hinit : ctx.estClientInitialized = true) (hloaded : loaded = true) :
    Tracks loaded events last := by
  refine ⟨?_, ?_⟩
  · apply judged_of_forall
    rintro front e back rfl
    obtain ⟨t, rfl⟩ := honly e (by simp)
    intro _
    have hflag := eq_of_configured ClientCtx.estClientInitialized (fun _ => rfl)
      (hsent t (by simp))
    refine ⟨hflag.trans hinit, ?_⟩
    rw [noted_onlySent fun e he => honly e (by simp [he]), hloaded]
  · intro _ _ _
    rw [noted_onlySent honly, hloaded]

theorem getCacerts_tracks {result : Traced Event (ClientCtx × EstError × Option Nat)}
    (hflag : ctx.estClientInitialized = true → loaded = true) (h : GotCacerts env net ctx result) :
    Tracks loaded result.events (result.value.map Prod.fst) := by
  have hlast (last : ClientCtx) (hvalue : result.value.map Prod.fst = some last)
      (hinit : last.estClientInitialized = true) : loaded = true := by
    obtain ⟨value, hresult, rfl⟩ := Option.map_eq_some_iff.mp hvalue
    have hsame := eq_of_configured ClientCtx.estClientInitialized (fun _ => rfl)
      ((getCacerts_configured h).2 value hresult)
    exact hflag (hsame.symm.trans hinit)
  cases h with
  | undefined => exact part_nil hlast
  | refused => exact part_nil hlast
  | sent t _ _ hop =>
    refine ⟨?_, ?_⟩
    · exact ⟨fun hu => absurd hop hu, trivial⟩
    · intro last hvalue hinit
      rw [noted_onlySent (onlySent_one t)]
      exact hlast last hvalue hinit

theorem getCsrattrs_tracks {result : Traced Event (ClientCtx × Except EstError (Option Bytes))}
    {last : Option ClientCtx} (hinit : ctx.estClientInitialized = true) (hloaded : loaded = true)
    (h : GotCsrattrs env net ctx result) : Tracks loaded result.events last := by
  apply tracks_sent _ (getCsrattrs_configured h).1 hinit hloaded
  cases h with
  | undefined => exact onlySent_nil
  | refused => exact onlySent_nil
  | sent t => exact onlySent_one t

theorem enrollCall_tracks {op : EstOperation} {result : Traced Event (ClientCtx × Enrolled)}
    (hflag : ctx.estClientInitialized = true → loaded = true) (h : EnrollCall env net ctx op result) :
    Tracks loaded result.events (result.value.map Prod.fst) := by
  have hsent := (enrollCall_configured h).1
  cases h with
  | refused =>
    apply part_nil
    rintro _ ⟨⟩ hinit
    exact hflag hinit
  | attempted reset hinit hresult =>
    apply tracks_sent _ hsent hinit (hflag hinit)
    cases hresult with
    | undefined => exact onlySent_nil
    | refused => exact onlySent_nil
    | crashed t => exact onlySent_one t
    | once t => exact onlySent_one t
    | barred t => exact onlySent_one t
    | twice t _ _ _ _ u =>
      intro e he
      simp only [List.mem_cons, List.not_mem_nil, or_false] at he
      exact he.elim (⟨t, ·⟩) (⟨u, ·⟩)

end Requests

section Calls

theorem provisionEnroll_tracks {result : Traced Event (ClientCtx × Provisioned)}
    (hinit : ctx.estClientInitialized = true) (hloaded : loaded = true)
    (h : ProvisionEnroll env net ctx result) :
    Tracks loaded result.events (result.value.map Prod.fst) := by
  cases h with
  | stopped hattrs => exact getCsrattrs_tracks hinit hloaded hattrs
  | enrolled hattrs mid answer hvalue _ hresult =>
    have hfirst : Tracks loaded _ (some mid) := getCsrattrs_tracks hinit hloaded hattrs
    have hsecond := enrollCall_tracks (hfirst.left mid rfl) hresult
    rw [Option.map_map]
    exact Part.append hfirst hsecond

theorem provisionCall_tracks {result : Traced Event (ClientCtx × Provisioned)}
    (hflag : ctx.estClientInitialized = true → loaded = true)
    (h : ProvisionCall env net ctx result) :
    Tracks loaded result.events (result.value.map Prod.fst) := by
  cases h with
  | refused =>
    apply part_nil
    rintro _ ⟨⟩ hinit
    exact hflag hinit
  | stopped hcerts value hresult =>
    have hcertsTracks := getCacerts_tracks hflag hcerts
    refine ⟨hcertsTracks.judged, ?_⟩
    intro last hlast hinit
    obtain ⟨⟨last, provisioned⟩, hvalue, rfl⟩ := Option.map_eq_some_iff.mp hlast
    obtain ⟨-, rv, len, hcertsValue⟩ := hresult last provisioned hvalue
    exact hcertsTracks.left last (by rw [hcertsValue, Option.map_some]) hinit
  | copied hcerts mid len hvalue =>
    exact Part.append (getCacerts_tracks hflag hcerts) (tracks_copied _ mid)
  | reloaded hcerts mid len hvalue pem hresult =>
    have hrest (before : Bool) :=
      provisionEnroll_tracks rfl (rfl : anchors before [.reloadedTrust] = true) hresult
    exact Part.append (getCacerts_tracks hflag hcerts)
      (Part.append (tracks_copied _ mid) (Part.append (tracks_reloaded _ none) (hrest _)))

/-- The attributes are not asked for by a client that has to be reset. -/
def AsksInitialized (client : ClientState) (input : Input) : Prop :=
  ∀ ctx, client = some ctx → input.1 = .getCsrattrs → ctx.estClientInitialized = true

/-- A context whose flag has not changed. -/
theorem tracks_same {last : ClientCtx} (hflag : ctx.estClientInitialized = true → loaded = true)
    (h : last.estClientInitialized = ctx.estClientInitialized) :
    Tracks loaded [] (some last) := by
  apply part_nil
  rintro _ ⟨⟩ hinit
  exact hflag (h.symm.trans hinit)

theorem copyEnrolledCert_initialized (ctx : ClientCtx) :
    (estClientCopyEnrolledCert ctx).1.estClientInitialized = ctx.estClientInitialized := by
  unfold estClientCopyEnrolledCert
  split
  · rfl
  · split <;> rfl

theorem copyServerGeneratedKey_initialized (ctx : ClientCtx) :
    (estClientCopyServerGeneratedKey ctx).1.estClientInitialized = ctx.estClientInitialized := by
  unfold estClientCopyServerGeneratedKey
  split
  · rfl
  · split <;> rfl

theorem invoked_tracks {call : Call} {result : Traced Event (ClientCtx × Reply)}
    (hflag : ctx.estClientInitialized = true → loaded = true)
    (hask : AsksInitialized (some ctx) (call, net)) (h : Invoked env net ctx call result) :
    Tracks loaded result.events (result.value.map Prod.fst) := by
  cases h with
  | settings call ctx' rv hadjusted => exact tracks_same hflag hadjusted.initialized
  | getCacerts hcerts =>
    rw [Option.map_map]
    exact getCacerts_tracks hflag hcerts
  | copyCacerts hcopy =>
    cases hcopy with
    | refused => exact tracks_same hflag rfl
    | copied => exact tracks_copied loaded ctx
  | getCsrattrs hattrs =>
    have hinit := hask ctx rfl rfl
    exact getCsrattrs_tracks hinit (hflag hinit) hattrs
  | enroll call op hop hcall =>
    rw [Option.map_map]
    exact enrollCall_tracks hflag hcall
  | uncopied => exact tracks_same hflag rfl
  | provisionCert cn newPublicKey hcall =>
    rw [Option.map_map]
    exact provisionCall_tracks hflag hcall
  | copyEnrolledCert => exact tracks_same hflag (copyEnrolledCert_initialized ctx)
  | copyServerGeneratedKey => exact tracks_same hflag (copyServerGeneratedKey_initialized ctx)

theorem step_tracks {client next : ClientState} {input : Input} {out : Output}
    (hflag : ∀ ctx, client = some ctx → ctx.estClientInitialized = true → loaded = true)
    (hask : AsksInitialized client input) (h : step env client input = some (next, out)) :
    Tracks loaded out.events next := by
  cases client with
  | none =>
    cases h
    exact part_nil fun _ h => nomatch h
  | some ctx =>
    cases h
    exact invoked_tracks (hflag ctx rfl) hask (invoke_cases env input.2 ctx input.1)

end Calls

section Runs

/-- In a run in which the attributes are asked for by initialized clients only, every
request but one for authorities leaves a client that is initialized, and whose trust
anchors have been loaded since they were last copied. -/
theorem requests_leave_initialized {client last : ClientState} {inputs : List Input}
    {outs : List Output} (hok : Guarded (step env) AsksInitialized client inputs)
    (h : run (step env) client inputs = some (last, outs)) :
    ∀ front t back, allEvents outs = front ++ .sent t :: back → t.op ≠ .cacerts →
      t.ctx.estClientInitialized = true ∧ anchors true front = true := by
  have hkeep (past : List Input) (before : List Output) (s : ClientState) (i : Input)
      (next : ClientState) (out : Output) (hinv : Tracks true (allEvents before) s)
      (hask : AsksInitialized s i) (hstep : step env s i = some (next, out)) :
      Tracks true (allEvents (before ++ [out])) next := by
    have hout := step_tracks hinv.left hask hstep
    rw [allEvents_concat]
    exact Part.append hinv hout
  have hstart : Tracks true (allEvents []) client := part_nil fun _ _ _ => rfl
  have hall := (run_history hkeep hstart hok h).judged
  intro front t back hevents hop
  rw [hevents] at hall
  exact hall.at hop

/-- A device that asks for the attributes, and is then provisioned. -/
def provisionRun : List Input :=
  [(.getCsrattrs, serving noContentAnswer unreachable),
    (.provisionCert (ascii "dev") (some deviceKey), serving cacertsAnswer noContentAnswer)]

theorem provision_leaves_initialized : ∃ last outs,
    run (step clientEnv) (some hostCtx) provisionRun = some (last, outs) ∧
      ∀ front t back, allEvents outs = front ++ .sent t :: back → t.op ≠ .cacerts →
        t.ctx.estClientInitialized = true ∧ anchors true front = true := by
  have hok : Guarded (step clientEnv) AsksInitialized (some hostCtx) provisionRun := by
    refine ⟨?_, fun next out _ => ⟨?_, fun _ _ _ => trivial⟩⟩
    · rintro ctx ⟨⟩ -
      rfl
    · intro ctx _ h
      cases h
  obtain ⟨last, outs, hrun⟩ := run_exists clientEnv (some hostCtx) provisionRun
  exact ⟨last, outs, hrun, requests_leave_initialized hok hrun⟩

/-- A client whose application copies the authorities, and asks for attributes
before it has loaded them. -/
def copyRun : List Input :=
  [(.getCacerts, serving cacertsAnswer unreachable),
    (.copyCacerts, serving unreachable unreachable),
    (.getCsrattrs, serving noContentAnswer unreachable)]

theorem copyRun_judged :
    (run (step clientEnv) (some hostCtx) copyRun).map (fun result =>
      decide (Judged anchor Covered true (allEvents result.2))) = some false := by
  decide +kernel

/-- After its authorities have been copied, the client still asks for attributes. -/
theorem csrattrs_leave_uninitialized : ∃ inputs last outs,
    run (step clientEnv) (some hostCtx) inputs = some (last, outs) ∧
      ¬ ∀ front t back, allEvents outs = front ++ .sent t :: back → t.op ≠ .cacerts →
        t.ctx.estClientInitialized = true ∧ anchors true front = true := by
  obtain ⟨⟨last, outs⟩, hrun, hjudged⟩ := Option.map_eq_some_iff.mp copyRun_judged
  refine ⟨copyRun, last, outs, hrun, ?_⟩
  intro hall
  apply of_decide_eq_false hjudged
  apply judged_of_forall
  intro front e back hevents
  cases e with
  | sent t => exact hall front t back hevents
  | slept => trivial
  | copiedCacerts => trivial
  | reloadedTrust => trivial

end Runs

end LibEst.Client.Initialized
