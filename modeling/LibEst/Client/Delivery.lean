import LibEst.Client.ApiCases
import LibEst.Client.ReferenceEnv
import LibEst.Client.KeygenRoundTrip

/-! What the client stores and what it reports. An application that watches the
calls and the answers of the servers knows which certificate and which key it is
to get, and a run of the client is compared with what it knows. -/
namespace LibEst.Client.Delivery

open LibEst.Basic LibEst.OpenSsl LibEst.Lib.ByteString LibEst.Lib.Machine LibEst.Lib.Trace
open LibEst.Server LibEst.Server.AuthHeader LibEst.Server.Reference
open LibEst.Server.KeygenResponse
open LibEst.Client.Context LibEst.Client.AuthHeader LibEst.Client.Http LibEst.Client.Request
open LibEst.Client.Answer LibEst.Client.Enroll LibEst.Client.EnrollCases LibEst.Client.Api
open LibEst.Client.ApiCases LibEst.Client.Reference LibEst.Client.ReferenceEnv
open LibEst.Client.KeygenRoundTrip

variable {env : ClientEnv} {net : Network} {ctx : ClientCtx} {op : EstOperation}

section Application

/-- What an application may ask for. -/
structure Store where
  cert : Option Bytes
  key : Option Bytes
  deriving DecidableEq

/-- The certificate of an answer, and its key where the server has generated one. -/
def delivered (t : Sent) : Option (Bytes × Option Bytes) :=
  match t.answer with
  | some (_, .ok buffers) =>
      buffers.cert.map fun cert => (cert, if t.op = .serverKeygen then buffers.key else none)
  | _ => none

/-- What the last request of a call was answered with. -/
def lastDelivered (events : List Event) : Option (Bytes × Option Bytes) :=
  match events.getLast? with
  | some (.sent t) => delivered t
  | _ => none

/-- The operation of a call that is to leave a certificate behind. -/
def storesWith : Call → Option EstOperation
  | .provisionCert _ _ => some .simpleEnroll
  | call => enrollOperation call

/-- A success puts what was delivered in the store, and what has been copied is no
longer in it. An error changes nothing. -/
def note (store : Store) (input : Input) (out : Output) : Store :=
  match out.reply with
  | none => store
  | some reply =>
      if reply.rv ≠ .none then store
      else if (storesWith input.1).isSome then
        match lastDelivered out.events with
        | none => store
        | some (cert, key) => ⟨some cert, key.or store.key⟩
      else
        match input.1 with
        | .copyEnrolledCert => { store with cert := none }
        | .copyServerGeneratedKey => { store with key := none }
        | _ => store

/-- A call that succeeds has sent a request, the answer to it was a success, and
the lengths that are reported are those of what it delivered. -/
def ReportsDelivery (op : EstOperation) (events : List Event) (reply : Reply) : Prop :=
  ∃ front t cert key, events = front ++ [.sent t] ∧ t.op = op ∧ t.status = 200 ∧
    delivered t = some (cert, key) ∧ reply.pkcs7Len = some cert.length ∧
      (op = .serverKeygen → key ≠ none ∧ reply.pkcs8Len = key.map List.length)

/-- What is in the store is handed out, and nothing else. -/
def HandsOut (stored : Option Bytes) (reply : Reply) : Prop :=
  reply.data = stored ∧ (reply.rv = .none ↔ stored ≠ none)

/-- An output is what the application expects. A client that has to be reset hands
nothing out. -/
structure Right (store : Store) (input : Input) (out : Output) : Prop where
  enrolls : ∀ op reply, storesWith input.1 = some op → out.reply = some reply →
    reply.rv = .none → ReportsDelivery op out.events reply
  cert : ∀ reply, input.1 = .copyEnrolledCert → out.reply = some reply →
    reply.rv ≠ .clientNotInitialized → HandsOut store.cert reply
  key : ∀ reply, input.1 = .copyServerGeneratedKey → out.reply = some reply →
    reply.rv ≠ .clientNotInitialized → HandsOut store.key reply

/-- What a context has for the application. -/
def held (ctx : ClientCtx) : Store := ⟨ctx.enrolledClientCert, ctx.serverGenClientPrivKey⟩

end Application

section Answers

theorem held_of_settled {a b : ClientCtx} (h : settled a = settled b) : held a = held b :=
  eq_of_settled held (fun _ => rfl) h

/-- The key and the certificate that the server has generated belong together. -/
def KeyFits (env : ClientEnv) (ctx : ClientCtx) (x : Exchange) : Prop :=
  ∀ ctx' buffers cert key,
    estIoGetResponseInternal ctx .serverKeygen x.reads = some (ctx', .ok buffers) →
      enrollBuffers .serverKeygen buffers = .ok (cert, some key) →
        estClientVerifyKeyAndCert env key cert = .none

end Answers

section Storing

/-- What a call leaves for the application: after an error what was there before,
after a success what the last answer has delivered. -/
inductive Leaves (op : EstOperation) (before : Store) (events : List Event) :
    Store → Enrolled → Prop
  | unchanged (enrolled : Enrolled) (hrv : enrolled.rv ≠ .none) :
      Leaves op before events before enrolled
  | stored (front : List Event) (t : Sent) (cert : Bytes) (key : Option Bytes)
      (hevents : events = front ++ [.sent t]) (hop : t.op = op) (hstatus : t.status = 200)
      (hdelivered : delivered t = some (cert, key)) (hkey : op = .serverKeygen → key ≠ none) :
      Leaves op before events ⟨some cert, key.or before.key⟩
        ⟨.none, some cert.length, key.map List.length⟩

theorem getD_nil_eq {data : Option Bytes} (h : (data.getD []).length ≠ 0) :
    data = some (data.getD []) := by
  cases data with
  | none => exact absurd rfl h
  | some bytes => rfl

theorem enrollBuffers_ok {buffers : Buffers} {cert : Bytes} {key : Option Bytes}
    (h : enrollBuffers op buffers = .ok (cert, key)) :
    buffers.cert = some cert ∧ key = (if op = .serverKeygen then buffers.key else none) ∧
      (op = .serverKeygen → key ≠ none) := by
  unfold enrollBuffers at h
  dsimp only at h
  split_ifs at h with hcert hcertMax hop hkey hkeyMax
  · cases h
    rw [if_pos hop]
    exact ⟨getD_nil_eq hcert, (getD_nil_eq hkey).symm, fun _ => nofun⟩
  · cases h
    rw [if_neg hop]
    exact ⟨getD_nil_eq hcert, rfl, fun h => absurd h hop⟩

theorem delivered_ok {t : Sent} {ctx' : ClientCtx} {buffers : Buffers} {cert : Bytes}
    {key : Option Bytes} (hanswer : t.answer = some (ctx', .ok buffers))
    (hbuffers : enrollBuffers t.op buffers = .ok (cert, key)) : delivered t = some (cert, key) := by
  obtain ⟨hcert, hkey, -⟩ := enrollBuffers_ok hbuffers
  unfold delivered
  rw [hanswer]
  dsimp only
  rw [hcert, Option.map_some, hkey]

theorem storeEnrolled_fits (ctx : ClientCtx) {cert : Bytes} {key : Option Bytes}
    (hfits : ∀ k, key = some k → estClientVerifyKeyAndCert env k cert = .none) :
    held (storeEnrolled env ctx cert key).1 = ⟨some cert, key.or (held ctx).key⟩ ∧
      (storeEnrolled env ctx cert key).2 = ⟨.none, some cert.length, key.map List.length⟩ := by
  unfold storeEnrolled
  cases key with
  | none => exact ⟨rfl, rfl⟩
  | some key =>
    dsimp only
    rw [if_pos (hfits key rfl)]
    exact ⟨rfl, rfl⟩

/-- The end of one request. -/
theorem finish_leaves {t : Sent} {ctx' : ClientCtx} {answer : Except EstError Buffers}
    (front : List Event) (hanswer : t.answer = some (ctx', answer))
    (hfits : t.op = .serverKeygen → KeyFits env t.ctx t.exchange) :
    Leaves t.op (held t.ctx) (front ++ [.sent t]) (held (finish env t.op ctx' answer).1)
      (finish env t.op ctx' answer).2 := by
  have hanswered := sent_answered hanswer
  rw [← held_of_settled hanswered.settled_eq]
  cases answer with
  | error rv => exact .unchanged _ hanswered.error_ne_none
  | ok buffers =>
    cases hbuffers : enrollBuffers t.op buffers with
    | error rv =>
      rw [finish_refused hbuffers]
      exact .unchanged _ (enrollBuffers_error hbuffers).1
    | ok parts =>
      obtain ⟨cert, key⟩ := parts
      obtain ⟨-, hkey, hsome⟩ := enrollBuffers_ok hbuffers
      have hverified (k : Bytes) (hk : key = some k) :
          estClientVerifyKeyAndCert env k cert = .none := by
        by_cases hop : t.op = .serverKeygen
        · rw [hop, hk] at hbuffers
          have hread := answer_ok_read hanswer
          rw [hop] at hread
          exact hfits hop ctx' buffers cert k hread hbuffers
        · rw [if_neg hop] at hkey
          rw [hkey] at hk
          cases hk
      obtain ⟨hheld, henrolled⟩ := storeEnrolled_fits ctx' hverified
      rw [finish_stored hbuffers, hheld, henrolled]
      exact .stored front t cert key rfl rfl hanswered.ok_status (delivered_ok hanswer hbuffers) hsome

theorem keyFits_any {a b : ClientCtx} {x : Exchange} (h : KeyFits env a x) :
    KeyFits env b x := by
  intro ctx' buffers cert key hread hbuffers
  obtain ⟨ctx'', hread'⟩ := response_ok hread a
  exact h ctx'' buffers cert key hread' hbuffers

theorem enrollSent_held {x : Exchange} {t : Sent} (h : EnrollSent env x ctx op t) :
    held t.ctx = held ctx := by
  rw [h.context]
  rfl

/-- Both answers that a call may get fit. -/
def AnswersFit (env : ClientEnv) (ctx : ClientCtx) (net : Network) : Prop :=
  ∀ n < 2, KeyFits env ctx (net n)

theorem attempts_leave {result : Traced Event (ClientCtx × Enrolled × Bool)}
    (hfits : op = .serverKeygen → AnswersFit env ctx net) (h : Attempts env net ctx op result) :
    ∀ last enrolled finished, result.value = some (last, enrolled, finished) →
      Leaves op (held ctx) result.events (held last) enrolled := by
  have hleaves {n : Nat} {ctx' : ClientCtx} {t : Sent} (front : List Event) (hn : n < 2)
      (hctx : held ctx' = held ctx) (ht : EnrollSent env (net n) ctx' op t)
      {last : ClientCtx} {answer : Except EstError Buffers} (hanswer : t.answer = some (last, answer)) :
      Leaves op (held ctx) (front ++ [.sent t]) (held (finish env op last answer).1)
        (finish env op last answer).2 := by
    have hfinish := finish_leaves front hanswer fun hop => by
      rw [ht.exchange]
      exact keyFits_any (hfits (ht.operation.symm.trans hop) n hn)
    rw [enrollSent_held ht, hctx, ht.operation] at hfinish
    exact hfinish
  intro last enrolled finished hvalue
  cases h with
  | undefined => cases hvalue
  | refused rv finished hnone =>
    cases hvalue
    exact .unchanged _ hnone
  | crashed => cases hvalue
  | once t ht ctx' answer hanswer =>
    cases hvalue
    exact hleaves [] Nat.zero_lt_two rfl ht hanswer
  | barred t ht ctx' hanswer hmode value hresult =>
    obtain ⟨⟨rv, finished⟩, hrv, heq⟩ := Option.map_eq_some_iff.mp hvalue
    cases heq
    rw [held_of_settled (sent_answered hanswer).settled_eq, enrollSent_held ht]
    exact .unchanged _ (hresult rv finished hrv)
  | twice t ht ctx' hanswer hmode u hu =>
    obtain ⟨outcome, houtcome, heq⟩ := Option.map_eq_some_iff.mp hvalue
    cases heq
    obtain ⟨⟨ctx'', answer⟩, hsecond, heq⟩ := Option.map_eq_some_iff.mp houtcome
    have hctx' : held ctx' = held ctx := by
      rw [held_of_settled (sent_answered hanswer).settled_eq, enrollSent_held ht]
    have hlast := hleaves [.sent t] Nat.one_lt_two hctx' hu hsecond
    rw [hu.operation] at heq
    rw [heq] at hlast
    exact hlast

theorem held_close (reset : Bool) (result : ClientCtx × Enrolled × Bool) :
    held (close reset result).1 = held result.1 := by
  unfold close
  dsimp only
  split_ifs <;> rfl

theorem enrollCall_leaves {result : Traced Event (ClientCtx × Enrolled)}
    (hfits : op = .serverKeygen → AnswersFit env ctx net) (h : EnrollCall env net ctx op result) :
    ∀ last enrolled, result.value = some (last, enrolled) →
      Leaves op (held ctx) result.events (held last) enrolled := by
  intro last enrolled hvalue
  cases h with
  | refused rv hrv =>
    cases hvalue
    exact .unchanged _ hrv
  | attempted reset hinit hresult =>
    obtain ⟨⟨ctx', enrolled', finished⟩, hinner, heq⟩ := Option.map_eq_some_iff.mp hvalue
    have hheld := held_close reset (ctx', enrolled', finished)
    rw [heq] at hheld
    obtain rfl : enrolled' = enrolled := congrArg Prod.snd heq
    rw [hheld]
    exact attempts_leave hfits hresult ctx' enrolled' finished hinner

end Storing

section Provisioning

theorem Leaves.prepend {before after : Store} {events : List Event} {enrolled : Enrolled}
    (more : List Event) (h : Leaves op before events after enrolled) :
    Leaves op before (more ++ events) after enrolled := by
  cases h with
  | unchanged _ hrv => exact .unchanged _ hrv
  | stored front t cert key hevents hop hstatus hdelivered hkey =>
    apply Leaves.stored (more ++ front) t cert key _ hop hstatus hdelivered hkey
    rw [hevents, List.append_assoc]

theorem getCacerts_held {result : Traced Event (ClientCtx × EstError × Option Nat)}
    (h : GotCacerts env net ctx result) :
    ∀ last, result.value = some last → held last.1 = held ctx := by
  intro last hvalue
  cases h with
  | undefined => cases hvalue
  | refused =>
    cases hvalue
    rfl
  | sent t hinit hctx =>
    obtain ⟨⟨ctx', answer⟩, hanswer, rfl⟩ := Option.map_eq_some_iff.mp hvalue
    have hctx' : held ctx' = held ctx := by
      rw [held_of_settled (sent_answered hanswer).settled_eq, hctx]
      rfl
    cases answer with
    | error rv => exact hctx'
    | ok buffers =>
      obtain ⟨stored, hstored⟩ := storeCacerts_ctx env ctx' buffers.cert
      change held (storeCacerts env ctx' buffers.cert).1 = held ctx
      rw [hstored]
      exact hctx'

theorem getCsrattrs_held {result : Traced Event (ClientCtx × Except EstError (Option Bytes))}
    (h : GotCsrattrs env net ctx result) :
    ∀ last, result.value = some last → held last.1 = held ctx := by
  intro last hvalue
  cases h with
  | undefined => cases hvalue
  | refused =>
    cases hvalue
    rfl
  | sent t hctx =>
    obtain ⟨⟨ctx', answer⟩, hanswer, rfl⟩ := Option.map_eq_some_iff.mp hvalue
    have hctx' : held ctx' = held ctx := by
      rw [held_of_settled (sent_answered hanswer).settled_eq, hctx]
      rfl
    cases answer with
    | error rv => exact hctx'
    | ok buffers =>
      obtain ⟨key, cert⟩ := buffers
      cases cert with
      | none => exact hctx'
      | some text =>
        obtain ⟨stored, hstored⟩ := storeCsrattrs_ctx env ctx' text
        change held (storeCsrattrs env ctx' text).1 = held ctx
        rw [hstored]
        exact hctx'

/-- A provision call leaves what its enrollment leaves. -/
def ProvisionLeaves (before : Store) (result : Traced Event (ClientCtx × Provisioned)) : Prop :=
  ∀ last provisioned, result.value = some (last, provisioned) → ∃ enrolled,
    Leaves .simpleEnroll before result.events (held last) enrolled ∧
      provisioned.rv = enrolled.rv ∧ provisioned.pkcs7Len = enrolled.pkcs7Len

theorem provisionEnroll_leaves {result : Traced Event (ClientCtx × Provisioned)}
    (h : ProvisionEnroll env net ctx result) : ProvisionLeaves (held ctx) result := by
  intro last provisioned hvalue
  cases h with
  | stopped hattrs value hresult =>
    obtain ⟨hrv, answer, hattrsValue⟩ := hresult last provisioned hvalue
    rw [getCsrattrs_held hattrs _ hattrsValue]
    exact ⟨⟨provisioned.rv, provisioned.pkcs7Len, none⟩, .unchanged _ hrv, rfl, rfl⟩
  | enrolled hattrs mid answer hattrsValue hanswer hresult =>
    obtain ⟨⟨last', enrolled⟩, hinner, heq⟩ := Option.map_eq_some_iff.mp hvalue
    cases heq
    have hfits : EstOperation.simpleEnroll = .serverKeygen → AnswersFit env mid (later net) := nofun
    have hleaves := enrollCall_leaves hfits hresult last enrolled hinner
    rw [getCsrattrs_held hattrs _ hattrsValue] at hleaves
    exact ⟨enrolled, hleaves.prepend _, rfl, rfl⟩

theorem provisionCall_leaves {result : Traced Event (ClientCtx × Provisioned)}
    (h : ProvisionCall env net ctx result) : ProvisionLeaves (held ctx) result := by
  intro last provisioned hvalue
  have hfailed (hheld : held last = held ctx) (hrv : provisioned.rv ≠ .none) : ∃ enrolled,
      Leaves .simpleEnroll (held ctx) result.events (held last) enrolled ∧
        provisioned.rv = enrolled.rv ∧ provisioned.pkcs7Len = enrolled.pkcs7Len := by
    rw [hheld]
    exact ⟨⟨provisioned.rv, provisioned.pkcs7Len, none⟩, .unchanged _ hrv, rfl, rfl⟩
  cases h with
  | refused rv hrv =>
    cases hvalue
    exact hfailed rfl hrv
  | stopped hcerts value hresult =>
    obtain ⟨hrv, rv, len, hcertsValue⟩ := hresult last provisioned hvalue
    exact hfailed (getCacerts_held hcerts _ hcertsValue) hrv
  | copied hcerts mid len hcertsValue rv hrv =>
    cases hvalue
    exact hfailed (getCacerts_held hcerts _ hcertsValue) hrv
  | reloaded hcerts mid len hcertsValue pem hresult =>
    obtain ⟨enrolled, hleaves, hrv, hlen⟩ := provisionEnroll_leaves hresult last provisioned hvalue
    change Leaves _ (held mid) _ _ _ at hleaves
    rw [getCacerts_held hcerts _ hcertsValue] at hleaves
    exact ⟨enrolled, (hleaves.prepend [.copiedCacerts, .reloadedTrust]).prepend _, hrv, hlen⟩

end Provisioning

section Calls

variable {store store' : Store} {call : Call} {events : List Event} {enrolled : Enrolled}
  {reply : Reply}

theorem leaves_note (hcall : storesWith call = some op) (hrv : reply.rv = enrolled.rv)
    (h : Leaves op store events store' enrolled) :
    note store (call, net) ⟨events, some reply⟩ = store' := by
  unfold note
  dsimp only
  rw [hrv]
  cases h with
  | unchanged _ hne => rw [if_pos hne]
  | stored front t cert key hevents hop hstatus hdelivered hkey =>
    have hlast : lastDelivered events = some (cert, key) := by
      unfold lastDelivered
      rw [hevents, List.getLast?_concat]
      exact hdelivered
    rw [if_neg (not_not.mpr rfl), if_pos (by rw [hcall, Option.isSome_some]), hlast]

theorem leaves_right (hcall : storesWith call = some op) (hrv : reply.rv = enrolled.rv)
    (hlen : reply.pkcs7Len = enrolled.pkcs7Len)
    (hkeyLen : op = .serverKeygen → reply.pkcs8Len = enrolled.pkcs8Len)
    (h : Leaves op store events store' enrolled) :
    Right store (call, net) ⟨events, some reply⟩ := by
  refine ⟨?_, ?_, ?_⟩
  · rintro op' _ hop ⟨⟩ hnone
    obtain rfl : op = op' := Option.some.inj (hcall.symm.trans hop)
    cases h with
    | unchanged _ hne => exact absurd (hrv.symm.trans hnone) hne
    | stored front t cert key hevents hop hstatus hdelivered hkey =>
      exact ⟨front, t, cert, key, hevents, hop, hstatus, hdelivered, hlen,
        fun hgen => ⟨hkey hgen, hkeyLen hgen⟩⟩
  · rintro _ (rfl : call = .copyEnrolledCert)
    cases hcall
  · rintro _ (rfl : call = .copyServerGeneratedKey)
    cases hcall

/-- A call that neither enrolls nor copies anything out of the store. -/
theorem right_other (hcall : storesWith call = none) (hcert : call ≠ .copyEnrolledCert)
    (hkey : call ≠ .copyServerGeneratedKey) (out : Output) :
    Right store (call, net) out ∧ note store (call, net) out = store := by
  refine ⟨⟨?_, fun _ h => absurd h hcert, fun _ h => absurd h hkey⟩, ?_⟩
  · intro op _ hop
    rw [hcall] at hop
    cases hop
  · unfold note
    dsimp only
    split
    · rfl
    · rw [hcall]
      split
      · rfl
      · rw [if_neg (by nofun)]
        split
        · exact absurd rfl hcert
        · exact absurd rfl hkey
        · rfl

/-- An output is right, and the context is left as the application expects. -/
def Kept (store : Store) (call : Call) (net : Network)
    (result : Traced Event (ClientCtx × Reply)) : Prop :=
  ∀ last reply, result.value = some (last, reply) →
    Right store (call, net) ⟨result.events, some reply⟩ ∧
      held last = note store (call, net) ⟨result.events, some reply⟩

theorem kept_leaves {result : Traced Event (ClientCtx × Enrolled)}
    (hcall : storesWith call = some op)
    (h : ∀ last enrolled, result.value = some (last, enrolled) →
      Leaves op store result.events (held last) enrolled) :
    Kept store call net ⟨result.events,
      result.value.map fun (ctx, enrolled) => (ctx, .enrolled enrolled)⟩ := by
  intro last reply hvalue
  obtain ⟨⟨last', enrolled⟩, hinner, heq⟩ := Option.map_eq_some_iff.mp hvalue
  cases heq
  have hleaves := h last enrolled hinner
  exact ⟨leaves_right hcall rfl rfl (fun _ => rfl) hleaves, (leaves_note hcall rfl hleaves).symm⟩

theorem kept_other {result : Traced Event (ClientCtx × Reply)} (hcall : storesWith call = none)
    (hcert : call ≠ .copyEnrolledCert) (hkey : call ≠ .copyServerGeneratedKey)
    (h : ∀ last reply, result.value = some (last, reply) → held last = store) :
    Kept store call net result := by
  intro last reply hvalue
  obtain ⟨hright, hnote⟩ := right_other hcall hcert hkey ⟨result.events, some reply⟩
  exact ⟨hright, (h last reply hvalue).trans hnote.symm⟩

theorem right_copyEnrolledCert (h : reply.rv ≠ .clientNotInitialized → HandsOut store.cert reply) :
    Right store (.copyEnrolledCert, net) ⟨events, some reply⟩ := by
  apply Right.mk
  · intro op reply' hop
    cases hop
  · rintro _ - ⟨⟩
    exact h
  · intro reply' hcall
    cases hcall

theorem right_copyServerGeneratedKey
    (h : reply.rv ≠ .clientNotInitialized → HandsOut store.key reply) :
    Right store (.copyServerGeneratedKey, net) ⟨events, some reply⟩ := by
  apply Right.mk
  · intro op reply' hop
    cases hop
  · intro reply' hcall
    cases hcall
  · rintro _ - ⟨⟩
    exact h

theorem handsOut_nothing {rv : EstError} (h : rv ≠ .none) : HandsOut none (Reply.code rv) :=
  ⟨rfl, fun hnone => absurd hnone h, fun h => absurd rfl h⟩

theorem handsOut_data (data : Bytes) : HandsOut (some data) (Reply.handedOut (.ok (some data))) :=
  ⟨rfl, fun _ => nofun, fun _ => rfl⟩

theorem kept_copyEnrolledCert (ctx : ClientCtx) :
    Kept (held ctx) .copyEnrolledCert net ⟨[], some ((estClientCopyEnrolledCert ctx).1,
      .handedOut ((estClientCopyEnrolledCert ctx).2.map some))⟩ := by
  rintro _ _ ⟨⟩
  unfold estClientCopyEnrolledCert
  split
  · exact ⟨right_copyEnrolledCert fun hrv => absurd rfl hrv, rfl⟩
  · split
    · rename_i hcert
      refine ⟨right_copyEnrolledCert fun _ => ?_, rfl⟩
      change HandsOut ctx.enrolledClientCert _
      rw [hcert]
      exact handsOut_nothing nofun
    · rename_i cert hcert
      refine ⟨right_copyEnrolledCert fun _ => ?_, rfl⟩
      change HandsOut ctx.enrolledClientCert _
      rw [hcert]
      exact handsOut_data cert

theorem kept_copyServerGeneratedKey (ctx : ClientCtx) :
    Kept (held ctx) .copyServerGeneratedKey net ⟨[], some ((estClientCopyServerGeneratedKey ctx).1,
      .handedOut ((estClientCopyServerGeneratedKey ctx).2.map some))⟩ := by
  rintro _ _ ⟨⟩
  unfold estClientCopyServerGeneratedKey
  split
  · exact ⟨right_copyServerGeneratedKey fun hrv => absurd rfl hrv, rfl⟩
  · split
    · rename_i hkey
      refine ⟨right_copyServerGeneratedKey fun _ => ?_, rfl⟩
      change HandsOut ctx.serverGenClientPrivKey _
      rw [hkey]
      exact handsOut_nothing nofun
    · rename_i key hkey
      refine ⟨right_copyServerGeneratedKey fun _ => ?_, rfl⟩
      change HandsOut ctx.serverGenClientPrivKey _
      rw [hkey]
      exact handsOut_data key

/-- The extensions of a certificate can be copied where it is enrolled again, and a
key that a server generates fits its certificate. -/
def Storable (env : ClientEnv) (client : ClientState) (input : Input) : Prop :=
  ∀ ctx, client = some ctx →
    (∀ cert privKey, input.1 = .reenroll cert privKey → ¬ Uncopied env ctx cert privKey) ∧
      (enrollOperation input.1 = some .serverKeygen → AnswersFit env ctx input.2)

theorem storesWith_enroll (h : enrollOperation call = some op) : storesWith call = some op := by
  cases call <;> cases h <;> rfl

theorem storesWith_setting (h : isSetting call = true) : storesWith call = none := by
  cases call <;> first | rfl | cases h

theorem invoked_kept {result : Traced Event (ClientCtx × Reply)}
    (hok : Storable env (some ctx) (call, net)) (h : Invoked env net ctx call result) :
    Kept (held ctx) call net result := by
  obtain ⟨hcopied, hfits⟩ := hok ctx rfl
  cases h with
  | settings call ctx' rv hadjusted hcall =>
    have hheld : held ctx' = held ctx := by
      unfold held
      rw [hadjusted.enrolledClientCert, hadjusted.serverGenClientPrivKey]
    refine kept_other (storesWith_setting hcall) ?_ ?_ ?_
    · rintro rfl
      cases hcall
    · rintro rfl
      cases hcall
    · rintro _ _ ⟨⟩
      exact hheld
  | getCacerts hcerts =>
    refine kept_other rfl (by nofun) (by nofun) ?_
    intro last reply hvalue
    obtain ⟨value, hinner, heq⟩ := Option.map_eq_some_iff.mp hvalue
    cases heq
    exact getCacerts_held hcerts value hinner
  | copyCacerts hcopy =>
    refine kept_other rfl (by nofun) (by nofun) ?_
    rintro last reply hvalue
    cases hcopy with
    | refused =>
      cases hvalue
      rfl
    | copied =>
      cases hvalue
      rfl
  | getCsrattrs hattrs =>
    refine kept_other rfl (by nofun) (by nofun) ?_
    intro last reply hvalue
    obtain ⟨value, hinner, heq⟩ := Option.map_eq_some_iff.mp hvalue
    cases heq
    exact getCsrattrs_held hattrs value hinner
  | enroll call op hop hcall =>
    apply kept_leaves (storesWith_enroll hop)
    apply enrollCall_leaves _ hcall
    rintro rfl
    exact hfits hop
  | uncopied cert privKey huncopied => exact absurd huncopied (hcopied cert privKey rfl)
  | provisionCert cn newPublicKey hcall =>
    intro last reply hvalue
    obtain ⟨value, hinner, heq⟩ := Option.map_eq_some_iff.mp hvalue
    cases heq
    obtain ⟨enrolled, hleaves, hrv, hlen⟩ := provisionCall_leaves hcall value.1 value.2 hinner
    exact ⟨leaves_right rfl hrv hlen (fun h => nomatch h) hleaves, (leaves_note rfl hrv hleaves).symm⟩
  | copyEnrolledCert => exact kept_copyEnrolledCert ctx
  | copyServerGeneratedKey => exact kept_copyServerGeneratedKey ctx

theorem right_silent : Right store (call, net) ⟨events, none⟩ :=
  ⟨fun _ _ _ h => (nomatch h), fun _ _ h => (nomatch h), fun _ _ h => (nomatch h)⟩

theorem step_kept {client next : ClientState} {input : Input} {out : Output}
    (hheld : ∀ ctx, client = some ctx → held ctx = store) (hok : Storable env client input)
    (h : step env client input = some (next, out)) :
    Right store input out ∧ ∀ ctx, next = some ctx → held ctx = note store input out := by
  obtain ⟨call, net⟩ := input
  cases client with
  | none =>
    cases h
    exact ⟨right_silent, fun _ h => nomatch h⟩
  | some ctx =>
    have hkept := invoked_kept hok (invoke_cases env net ctx call)
    rw [hheld ctx rfl] at hkept
    cases h
    dsimp only
    generalize invoke env net ctx call = result at hkept
    cases hvalue : result.value with
    | none => exact ⟨right_silent, fun _ h => nomatch h⟩
    | some value =>
      obtain ⟨hright, hnote⟩ := hkept value.1 value.2 hvalue
      refine ⟨hright, ?_⟩
      rintro _ ⟨⟩
      exact hnote

end Calls

section Runs

/-- In a run in which certificates can be enrolled again with their extensions, and
generated keys fit their certificates, the application gets what it was told, call
after call. -/
theorem reports_match_store {ctx : ClientCtx} {last : ClientState} {inputs : List Input}
    {outs : List Output} (hok : Guarded (step env) (Storable env) (some ctx) inputs)
    (h : run (step env) (some ctx) inputs = some (last, outs)) :
    Observed note Right (held ctx) inputs outs := by
  have heach (s : ClientState) (store : Store) (i : Input) (next : ClientState) (out : Output)
      (hheld : ∀ ctx, s = some ctx → held ctx = store) (hstep : Storable env s i)
      (hout : step env s i = some (next, out)) :
      Right store i out ∧ ∀ ctx, next = some ctx → held ctx = note store i out :=
    step_kept hheld hstep hout
  apply run_observed heach _ hok h
  rintro _ ⟨⟩
  rfl

/-- A device that gets a certificate for its own request, and copies it. -/
def copiedEnroll : List Input :=
  [(.enrollCsr (some clientReq) none, serving (answering (ascii
      ("HTTP/1.1 200 OK\r\nContent-Type: application/pkcs7-mime; smime-type=certs-only\r\n" ++
        "Content-Length: 4\r\n\r\nMAA="))) unreachable),
    (.copyEnrolledCert, serving unreachable unreachable)]

theorem reports_match_copied : ∃ last outs,
    run (step clientEnv) (some hostCtx) copiedEnroll = some (last, outs) ∧
      Observed note Right (held hostCtx) copiedEnroll outs := by
  have hok : Guarded (step clientEnv) (Storable clientEnv) (some hostCtx) copiedEnroll := by
    refine ⟨?_, fun _ _ _ => ⟨?_, fun _ _ _ => trivial⟩⟩
    · intro ctx _
      exact ⟨fun _ _ h => (nomatch h), fun h => (nomatch h)⟩
    · intro ctx _
      exact ⟨fun _ _ h => (nomatch h), fun h => (nomatch h)⟩
  obtain ⟨last, outs, hrun⟩ := run_exists clientEnv (some hostCtx) copiedEnroll
  exact ⟨last, outs, hrun, reports_match_store hok hrun⟩

/-- A key that does not fit its certificate is reported, and both are left in the
context. -/
theorem unfit_left {key cert : Bytes} {result : Traced Event (ClientCtx × Enrolled)}
    (h : EnrollCall env net ctx .serverKeygen result) (hsent : result.events ≠ [])
    (hwrote : (net 0).wrote = true)
    (hread : ∀ ctx, estIoGetResponseInternal ctx .serverKeygen (net 0).reads =
      some ({ ctx with lastHttpStatus := 200 }, .ok ⟨some key, some cert⟩))
    (hbuffers : enrollBuffers .serverKeygen ⟨some key, some cert⟩ = .ok (cert, some key))
    (hunfit : estClientVerifyKeyAndCert env key cert ≠ .none) :
    ∃ last, result.value = some (last, ⟨.validation, some 0, some 0⟩) ∧
      held last = ⟨some cert, some key⟩ ∧
        last.estClientInitialized = ctx.estClientInitialized := by
  have hanswer {t : Sent} (ht : EnrollSent env (net 0) ctx .serverKeygen t) :
      t.answer = some ({ ctx with lastHttpStatus := 200 }, .ok ⟨some key, some cert⟩) := by
    unfold Sent.answer
    rw [ht.exchange, if_pos hwrote, ht.operation, hread, ht.context]
  have hfinish (last : ClientCtx) :
      finish env .serverKeygen last (.ok ⟨some key, some cert⟩) =
        ({ last with enrolledClientCert := some cert, serverGenClientPrivKey := some key },
          ⟨.validation, some 0, some 0⟩) := by
    rw [finish_stored hbuffers]
    unfold storeEnrolled
    dsimp only
    rw [if_neg hunfit]
  cases h with
  | refused => exact absurd rfl hsent
  | attempted reset hinit hresult =>
    cases hresult with
    | undefined => exact absurd rfl hsent
    | refused => exact absurd rfl hsent
    | crashed t ht hnone => cases hnone.symm.trans (hanswer ht)
    | barred t ht ctx' herror => cases herror.symm.trans (hanswer ht)
    | twice t ht ctx' herror => cases herror.symm.trans (hanswer ht)
    | once t ht ctx' answer hgot =>
      cases hgot.symm.trans (hanswer ht)
      rw [hfinish]
      refine ⟨_, rfl, ?_, ?_⟩
      · exact held_close reset _
      · dsimp only
        split_ifs <;> rfl

/-- The step of a call whose key does not fit. -/
theorem unfit_step {key cert cn : Bytes} {newPublicKey : Option EvpPkey}
    (hsent : (estClientEnrollInternal env net ctx cn newPublicKey .serverKeygen).events ≠ [])
    (hwrote : (net 0).wrote = true)
    (hread : ∀ ctx, estIoGetResponseInternal ctx .serverKeygen (net 0).reads =
      some ({ ctx with lastHttpStatus := 200 }, .ok ⟨some key, some cert⟩))
    (hbuffers : enrollBuffers .serverKeygen ⟨some key, some cert⟩ = .ok (cert, some key))
    (hunfit : estClientVerifyKeyAndCert env key cert ≠ .none) : ∃ last events,
    step env (some ctx) (.serverKeygenEnroll cn newPublicKey, net) =
        some (some last, ⟨events, some (.enrolled ⟨.validation, some 0, some 0⟩)⟩) ∧
      held last = ⟨some cert, some key⟩ ∧
        last.estClientInitialized = ctx.estClientInitialized := by
  obtain ⟨last, hvalue, hheld, hinit⟩ := unfit_left
    (enrollInternal_cases env net ctx cn newPublicKey .serverKeygen) hsent hwrote hread hbuffers hunfit
  refine ⟨last, (estClientEnrollInternal env net ctx cn newPublicKey .serverKeygen).events, ?_,
    hheld, hinit⟩
  unfold step
  dsimp only
  rw [invoke, bind_pure_eq]
  dsimp only
  rw [estClientServerKeygenEnroll, hvalue]
  rfl

/-- A request that fits the buffer is written. -/
theorem enrollReq_events {x : Exchange} {csr : X509Req} {privKey : Option EvpPkey} {hdr : Bytes}
    (hhdr : enrollHeader env x ctx op (pkcs10Text env csr).length = some hdr) (hne : hdr ≠ [])
    (hbody : (pkcs10Text env csr).length ≤ estHttpReqDataMax)
    (htotal : hdr.length + (pkcs10Text env csr).length + 4 < estHttpReqTotalLen) :
    (estClientEnrollReq env x ctx csr privKey op).events ≠ [] := by
  have hrequest : buildRequest hdr (pkcs10Text env csr) =
      some (hdr ++ crlf ++ pkcs10Text env csr ++ crlf) := by
    have hline : crlf.length = 2 := by decide
    unfold buildRequest addLineEnd
    rw [if_pos (by omega), Option.bind_eq_bind, Option.bind_some, if_neg (by omega), if_pos]
    simp only [List.length_append, hline]
    omega
  unfold estClientEnrollReq estClientSendEnrollRequestInternal
  dsimp only
  rw [hhdr]
  apply bind_events_ne_nil
  rw [bind_of_value_some (ofOption_value _), ofOption_events, List.nil_append]
  apply bind_events_ne_nil
  unfold exchange
  rw [if_neg hne, hrequest, bind_of_value_some (ofOption_value _), emit_bind]
  nofun

theorem enrollInternal_events {ssl : Ssl} {cn : Bytes} {pkey : EvpPkey} {csr : X509Req}
    (hinit : ctx.estClientInitialized = true) (hconnect : (net 0).connect = .ok ssl)
    (hbuilt : TlsUid.estGeneratePkcs10 env.crypto (popRequired ctx) ssl cn pkey ctx.signingDigest =
      some (.ok csr))
    (h : (estClientEnrollReq env (net 0) ctx csr (some pkey) op).events ≠ []) :
    (estClientEnrollInternal env net ctx cn (some pkey) op).events ≠ [] := by
  unfold estClientEnrollInternal attemptTwice
  rw [if_neg (not_not.mpr hinit), hconnect]
  apply bind_events_ne_nil
  apply bind_events_ne_nil
  unfold estClientEnrollCn enrollBuilt
  dsimp only
  rw [hbuilt, bind_of_value_some (ofOption_value _), ofOption_events, List.nil_append]
  exact h

/-- The answer of a server whose key and certificate are no DER at all. -/
def strayKeygen : Exchange where
  connect := .ok devSession
  wrote := true
  reads := (keygenWrites (List.replicate 256 65) (List.replicate 128 66)).map some
  random := none
  stack := []

/-- A device that asks for a key and is told that it is not valid, and copies the
certificate all the same. -/
def strayRun : List Input :=
  [(.serverKeygenEnroll (ascii "dev") (some deviceKey), serving strayKeygen unreachable),
    (.copyEnrolledCert, serving unreachable unreachable)]

theorem strayKeygen_read (ctx : ClientCtx) :
    estIoGetResponseInternal ctx .serverKeygen strayKeygen.reads =
      some ({ ctx with lastHttpStatus := 200 },
        .ok ⟨some (List.replicate 256 65), some (List.replicate 128 66)⟩) := by
  have hkey : TransferText 256 8192 (List.replicate 256 65) :=
    transferText_replicate (.inl (by decide)) (by decide) (by decide)
  have hcert : TransferText 128 4096 (List.replicate 128 66) :=
    transferText_replicate (.inl (by decide)) (by decide) (by decide)
  have hne : ∀ chunk ∈ keygenWrites (List.replicate 256 65) (List.replicate 128 66), chunk ≠ [] := by
    decide +kernel
  have hread := getResponse_keygenStream ctx hkey hcert hne rfl
  rw [if_neg (by decide +kernel)] at hread
  exact hread

theorem strayKeygen_unfit (key cert : Bytes) :
    estClientVerifyKeyAndCert clientEnv key cert = .validation := by
  unfold estClientVerifyKeyAndCert
  dsimp only
  have hnone (decoded : Option Bytes) : decoded.bind clientEnv.d2iPkcs7 = none := by
    cases decoded <;> rfl
  rw [hnone]

/-- The request that the device makes. -/
def deviceReq : X509Req where
  subject := devName
  attributes := []
  pubKey := deviceKey.pubKey
  signature := plainSignature

theorem deviceReq_generated : TlsUid.estGeneratePkcs10 clientEnv.crypto (popRequired hostCtx)
    devSession (ascii "dev") deviceKey hostCtx.signingDigest = some (.ok deviceReq) := by
  decide +kernel

theorem deviceReq_text_length : (pkcs10Text clientEnv deviceReq).length = 277 := by decide +kernel

theorem strayKeygen_header_length :
    (estClientBuildServerKeygenHeader clientEnv strayKeygen hostCtx 277).map List.length =
      some 175 := by
  decide +kernel

/-- The request for the key is written. -/
theorem strayKeygen_sent : (estClientEnrollInternal clientEnv (serving strayKeygen unreachable)
    hostCtx (ascii "dev") (some deviceKey) .serverKeygen).events ≠ [] := by
  obtain ⟨hdr, hbuilt, hsize⟩ := Option.map_eq_some_iff.mp strayKeygen_header_length
  rw [← deviceReq_text_length] at hbuilt
  have hne : hdr ≠ [] := by
    rintro rfl
    cases hsize
  have hbody : (pkcs10Text clientEnv deviceReq).length ≤ estHttpReqDataMax := by
    rw [deviceReq_text_length]
    decide
  have htotal : hdr.length + (pkcs10Text clientEnv deviceReq).length + 4 < estHttpReqTotalLen := by
    rw [deviceReq_text_length, hsize]
    decide
  exact enrollInternal_events rfl rfl deviceReq_generated (enrollReq_events hbuilt hne hbody htotal)

/-- A certificate that was reported as invalid is handed out. -/
theorem invalid_cert_handed_out : ∃ inputs last outs,
    run (step clientEnv) (some hostCtx) inputs = some (last, outs) ∧
      ¬ Observed note Right (held hostCtx) inputs outs := by
  have hbuffers : enrollBuffers .serverKeygen
      ⟨some (List.replicate 256 65), some (List.replicate 128 66)⟩ =
        .ok (List.replicate 128 66, some (List.replicate 256 65)) := by
    decide +kernel
  have hunfit : estClientVerifyKeyAndCert clientEnv (List.replicate 256 65) (List.replicate 128 66) ≠
      .none := by
    rw [strayKeygen_unfit]
    decide
  obtain ⟨ctx, events, hfirst, hheld, hinit⟩ :=
    unfit_step strayKeygen_sent rfl strayKeygen_read hbuffers hunfit
  have hcert : ctx.enrolledClientCert = some (List.replicate 128 66) := congrArg Store.cert hheld
  have hcopy : estClientCopyEnrolledCert ctx =
      ({ ctx with enrolledClientCert := none }, .ok (List.replicate 128 66)) := by
    unfold estClientCopyEnrolledCert
    rw [hinit, hcert]
    rfl
  have hsecond : step clientEnv (some ctx) (.copyEnrolledCert, serving unreachable unreachable) =
      some (some { ctx with enrolledClientCert := none },
        ⟨[], some (.handedOut (.ok (some (List.replicate 128 66))))⟩) := by
    unfold step
    dsimp only
    rw [invoke, hcopy]
    rfl
  refine ⟨strayRun, _, _, run_cons_iff.mpr ⟨_, _, _, hfirst,
    run_cons_iff.mpr ⟨_, _, _, hsecond, rfl, rfl⟩, rfl⟩, ?_⟩
  rintro ⟨-, hright, -⟩
  have hdata := (hright.cert _ rfl rfl (by decide)).1
  cases hdata

end Runs

end LibEst.Client.Delivery
