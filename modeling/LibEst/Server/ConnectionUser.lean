import LibEst.Server.AuthNames
import LibEst.Server.Connection
import LibEst.Server.EnrollGate

/-! The user that the CA is told. The name on a connection is overwritten by a
good header only, so that a request which gets through without one is told apart
from an earlier request by nothing. -/
namespace LibEst.Server.Connection

open LibEst.Basic LibEst.OpenSsl LibEst.Lib.ByteString LibEst.Asn1 LibEst.Lib.Machine
open LibEst.Server.AuthHeader LibEst.Server.Context LibEst.Server.EnhancedCertAuth
open LibEst.Server.EnrollAuth LibEst.Server.Enroll

section Outcomes

variable {C : Crypto} {A : Asn1Ops} {ctx : EstCtx} {conn : MgConnection} {r : EnrollRequest}
  {enrollReq : EnrollReqType} {out : Outcome} {auth : AuthResult} {csr : X509Req}

/-- The outcome of a request that has been through authorization. -/
structure Follows (ctx : EstCtx) (auth : AuthResult) (out : Outcome) : Prop where
  verdict : out.auth = some auth
  left : out.conn = auth.conn
  user : ∀ call, out.call = some call → call.request.userId = caUser ctx auth.conn

theorem refuse_follows (rc : EstError) : Follows ctx auth (refuse rc (some auth) auth.conn) :=
  ⟨rfl, rfl, by simp [refuse]⟩

theorem askCa_follows (cb : CaRequest → CaAnswer) :
    Follows ctx auth (askCa ctx cb r enrollReq auth) := by
  refine ⟨rfl, rfl, ?_⟩
  intro call hcall
  rw [askCa, Option.some.injEq] at hcall
  rw [← hcall]

theorem generateAndEnroll_follows {cb : CaRequest → Bytes → CaAnswer × Bytes}
    {generated : EstError × Option EvpPkey}
    (h : generateAndEnroll C A ctx cb generated r auth csr = some out) : Follows ctx auth out := by
  unfold generateAndEnroll at h
  split at h
  · split at h
    · rw [Option.some.injEq] at h
      rw [← h]
      exact refuse_follows _
    · rw [Option.bind_eq_bind, Option.bind_eq_some_iff] at h
      obtain ⟨b64der, -, h⟩ := h
      split at h
      · rw [Option.some.injEq] at h
        rw [← h]
        exact refuse_follows _
      · rw [Option.map_eq_some_iff] at h
        obtain ⟨rc, -, h⟩ := h
        split at h
        · rw [← h]
          exact refuse_follows _
        · rw [← h]
          refine ⟨rfl, rfl, ?_⟩
          intro call hcall
          simp only [askCaForKey, Option.some.injEq] at hcall
          rw [← hcall]
  · rw [Option.some.injEq] at h
    rw [← h]
    exact refuse_follows _

/-- Turned away before authorization, or what follows from it; the handler says
so when it fails. -/
def Handled (C : Crypto) (ctx : EstCtx) (conn : MgConnection) (r : EnrollRequest)
    (enrollReq : EnrollReqType) (out : Outcome) : Prop :=
  (out.call = none ∧ out.auth = none ∧ out.conn = conn) ∨
  ∃ auth, estEnrollAuth C ctx conn r.ssl r.pathSeg enrollReq r.body = some auth ∧
    Follows ctx auth out ∧ ∀ rc, authError auth.state = some rc → out.rc = rc ∧ out.call = none

theorem admitted_handled {next : AuthResult → X509Req → Option Outcome}
    (hnext : ∀ auth csr out, next auth csr = some out → Follows ctx auth out)
    (h : admitted C ctx conn r enrollReq next = some out) :
    Handled C ctx conn r enrollReq out := by
  unfold admitted at h
  split at h
  · rw [Option.some.injEq] at h
    rw [← h]
    exact Or.inl ⟨rfl, rfl, rfl⟩
  · rw [Option.bind_eq_bind, Option.bind_eq_some_iff] at h
    obtain ⟨auth, hauth, h⟩ := h
    refine Or.inr ⟨auth, hauth, ?_⟩
    cases hstate : authError auth.state with
    | some rc =>
      simp only [hstate, Option.some.injEq] at h
      rw [← h]
      refine ⟨refuse_follows rc, ?_⟩
      intro other hother
      rw [Option.some.injEq] at hother
      exact ⟨hother, rfl⟩
    | none =>
      simp only [hstate] at h
      refine ⟨?_, by simp⟩
      split at h
      · rw [Option.some.injEq] at h
        rw [← h]
        exact refuse_follows _
      · exact hnext _ _ _ h

theorem estHandleEnroll_handled (h : estHandleEnroll C A ctx conn r enrollReq = some out) :
    Handled C ctx conn r enrollReq out := by
  have hsimple : ∀ (cb : CaRequest → CaAnswer) auth csr out,
      (if estServerCheckCsr C csr ≠ 0 then some (refuse .badPkcs10 (some auth) auth.conn)
        else
          (requestChecks C A ctx r csr r.body).map fun rc =>
            if rc ≠ .none then refuse rc (some auth) auth.conn
            else askCa ctx cb r enrollReq auth) = some out → Follows ctx auth out := by
    intro cb auth csr out hout
    split at hout
    · rw [Option.some.injEq] at hout
      rw [← hout]
      exact refuse_follows _
    · rw [Option.map_eq_some_iff] at hout
      obtain ⟨rc, -, hout⟩ := hout
      split at hout
      · rw [← hout]
        exact refuse_follows _
      · rw [← hout]
        exact askCa_follows cb
  have hrefused : ∀ rc, some (refuse rc none conn) = some out →
      Handled C ctx conn r enrollReq out := by
    intro rc hout
    rw [Option.some.injEq] at hout
    rw [← hout]
    exact Or.inl ⟨rfl, rfl, rfl⟩
  cases enrollReq with
  | simpleEnroll | reenroll =>
    simp only [estHandleEnroll, estHandleSimpleEnroll] at h
    split at h
    · exact hrefused _ h
    · exact admitted_handled (hsimple _) h
  | serverKeygen =>
    simp only [estHandleEnroll, estHandleServerKeygen] at h
    split at h
    · exact admitted_handled (fun _ _ _ hout => generateAndEnroll_follows hout) h
    · exact hrefused _ h

end Outcomes

section Steps

variable {C : Crypto} {A : Asn1Ops} {s next : ConnState} {r : HttpRequest} {event : Event}

/-- The application accepted credentials with this user name. -/
def Event.accepts (event : Event) (user : Bytes) : Prop :=
  ∃ call ∈ event.accepted, call.ah.user = some user

/-- The user that the CA is told is nobody, or one that the application accepted
for this very request. -/
def Event.Attributed (event : Event) : Prop :=
  ∀ call user, event.call = some call → call.request.userId = some user →
    user = [] ∨ event.accepts user

/-- A name is left from an earlier request, and this one gets through in a way
that keeps it. -/
def KeepsName (C : Crypto) (s : ConnState) (r : HttpRequest) : Prop :=
  match r.operation with
  | .enroll enrollReq request =>
      r.ctx.transportMode = .http ∧ s.userId ≠ [] ∧
        Unnamed C r.ctx (resetPerRequestAttributes s r.source) request.ssl request.pathSeg
          enrollReq request.body
  | _ => False

theorem mem_acceptedCalls {ctx : EstCtx} {auth : AuthResult} {call : AuthCall}
    (h : Accepted ctx auth call) : call ∈ acceptedCalls ctx (some auth) := by
  obtain ⟨cb, hcb, hcalls, haccepted⟩ := h
  simp [acceptedCalls, hcb, hcalls, haccepted]

theorem isOpen_of_processRequest (h : processRequest C A s r = some (next, event)) :
    s.isOpen = true := by
  unfold processRequest at h
  split at h
  · assumption
  · cases h

theorem processRequest_some (h : processRequest C A s r = some (next, event)) :
    ∃ conn, estHttpRequest C A r (resetPerRequestAttributes s r.source) = some (conn, event) ∧
      next = { userId := conn.userId, isOpen := shouldKeepAlive r conn.statusCode } := by
  unfold processRequest at h
  split at h
  · rw [Option.bind_eq_bind, Option.bind_eq_some_iff] at h
    obtain ⟨⟨conn, event'⟩, hrequest, h⟩ := h
    cases h
    exact ⟨conn, hrequest, rfl⟩
  · cases h

theorem handleBrski_call {ctx : EstCtx} {conn conn' : MgConnection} {request : BrskiRequest}
    (h : handleBrski C ctx conn request = some (conn', event)) : event.call = none := by
  unfold handleBrski at h
  split at h
  · cases h
    rfl
  · rw [Option.bind_eq_bind, Option.bind_eq_some_iff] at h
    obtain ⟨auth, -, h⟩ := h
    simp only at h
    split at h <;> cases h <;> rfl

/-- A CA call is the end of an enrollment that was authorized. -/
theorem processRequest_call (h : processRequest C A s r = some (next, event)) {call : CaCall}
    (hcall : event.call = some call) :
    ∃ enrollReq request auth, r.operation = .enroll enrollReq request ∧
      estEnrollAuth C r.ctx (resetPerRequestAttributes s r.source) request.ssl request.pathSeg
        enrollReq request.body = some auth ∧
      auth.state.authorized = true ∧ call.request.userId = caUser r.ctx auth.conn ∧
      event.accepted = acceptedCalls r.ctx (some auth) := by
  obtain ⟨conn, hrequest, -⟩ := processRequest_some h
  unfold estHttpRequest at hrequest
  split at hrequest
  · cases hrequest
    cases hcall
  · rename_i enrollReq request hoperation
    rw [Option.bind_eq_bind, Option.bind_eq_some_iff] at hrequest
    obtain ⟨out, hout, hrequest⟩ := hrequest
    cases hrequest
    rcases estHandleEnroll_handled hout with ⟨hnone, -⟩ | ⟨auth, hauth, hfollows, hrefused⟩
    · rw [hnone] at hcall
      cases hcall
    · refine ⟨enrollReq, request, auth, hoperation, hauth, ?_, hfollows.user call hcall, ?_⟩
      · cases hstate : authError auth.state with
        | none => exact (authError_eq_none_iff _).mp hstate
        | some rc =>
          have hnone := (hrefused rc hstate).2
          rw [hnone] at hcall
          cases hcall
      · rw [hfollows.verdict]
  · rw [handleBrski_call hrequest] at hcall
    cases hcall

/-- Without any condition, the CA may also be told the name that was kept. -/
theorem processRequest_told (h : processRequest C A s r = some (next, event)) {call : CaCall}
    {user : Bytes} (hcall : event.call = some call) (huser : call.request.userId = some user) :
    user = s.userId ∨ user = [] ∨ event.accepts user := by
  obtain ⟨enrollReq, request, auth, -, hauth, hauthorized, htold, haccepted⟩ :=
    processRequest_call h hcall
  have hleft : user = auth.conn.userId := by
    rw [htold] at huser
    unfold caUser at huser
    split at huser
    · exact (Option.some.inj huser).symm
    · cases huser
  rw [hleft]
  rcases (estEnrollAuth_path hauth).user with hkept | hnamed | hstate
  · exact Or.inl hkept
  · refine Or.inr (hnamed.imp_right ?_)
    rintro ⟨accepted, haccept, hname⟩
    refine ⟨accepted, ?_, hname⟩
    rw [haccepted]
    exact mem_acceptedCalls haccept
  · rw [hstate] at hauthorized
    cases hauthorized

/-- One request: where no old name is kept, the CA is told the right one. -/
theorem processRequest_attributed (h : processRequest C A s r = some (next, event))
    (hfresh : ¬ KeepsName C s r) : event.Attributed := by
  intro call user hcall huser
  obtain ⟨enrollReq, request, auth, hoperation, hauth, hauthorized, htold, haccepted⟩ :=
    processRequest_call h hcall
  unfold caUser at htold
  cases hmode : r.ctx.transportMode with
  | coap =>
    rw [hmode] at htold
    rw [htold] at huser
    cases huser
  | http =>
    rw [hmode] at htold
    rw [htold, Option.some.injEq] at huser
    subst huser
    have hnamed := (estEnrollAuth_named_iff hmode).mpr (by
      by_contra hkept
      obtain ⟨hkept, hunnamed⟩ := not_or.mp hkept
      apply hfresh
      unfold KeepsName
      rw [hoperation]
      exact ⟨hmode, hkept, not_not.mp hunnamed⟩) auth hauth hauthorized
    rcases hnamed with hempty | ⟨accepted, haccept, hname⟩
    · exact Or.inl hempty
    · refine Or.inr ⟨accepted, ?_, hname⟩
      rw [haccepted]
      exact mem_acceptedCalls haccept

/-- The same for a voucher request or a status report. -/
theorem estBrskiAuth_user {ctx : EstCtx} {conn : MgConnection} {ssl : Ssl} {pathSeg : Option Bytes}
    {auth : AuthResult} (h : estBrskiAuth C ctx conn ssl pathSeg = some auth) :
    auth.conn.userId = conn.userId ∨ Named ctx auth ∨ auth.state = .unauthorized := by
  have hstage : ∀ (cb : AuthCall → Bool) peer creds, ctx.estHttpAuthCb = some cb →
      (creds = headerCredentials C ctx conn ∨ creds.userId = conn.userId) →
      brskiHttpStage cb conn peer pathSeg creds = auth →
      auth.conn.userId = conn.userId ∨ Named ctx auth ∨ auth.state = .unauthorized := by
    intro cb peer creds hcb hcreds hauth
    have hleft : auth.conn.userId = creds.userId := by
      rw [← hauth]
      unfold brskiHttpStage
      cases creds.result <;> rfl
    rcases hcreds with rfl | hkept
    · rcases headerCredentials_user with ⟨hkept, -⟩ | ⟨hgood, -, hname⟩
      · exact Or.inl (hleft.trans hkept)
      · cases haccept : cb ⟨(headerCredentials C ctx conn).ah, peer, pathSeg⟩ with
        | true =>
          refine Or.inr (Or.inl (Or.inr ⟨_, ⟨cb, hcb, ?_, haccept⟩, ?_⟩))
          · rw [← hauth]
            simp only [brskiHttpStage, hgood]
          · rw [hleft]
            exact hname
        | false =>
          refine Or.inr (Or.inr ?_)
          rw [← hauth]
          simp [brskiHttpStage, hgood, askApplication, haccept]
    · exact Or.inl (hleft.trans hkept)
  have hcredentials : ∀ peer rv,
      brskiCredentials C ctx conn ssl peer rv = headerCredentials C ctx conn ∨
      (brskiCredentials C ctx conn ssl peer rv).userId = conn.userId := by
    intro peer rv
    unfold brskiCredentials
    split
    · split
      · exact Or.inr rfl
      · exact Or.inl rfl
    · exact Or.inl rfl
  unfold estBrskiAuth at h
  simp only at h
  split at h
  · cases h
    exact Or.inl rfl
  · rename_i peer rv htls
    generalize (if rv ≠ .certAuth ∧ ssl.srpUsername.isSome = true then AuthState.srpAuth
      else rv) = verdict at h
    split at h
    · split at h
      · rename_i cb hcb
        split at h
        · exact hstage cb _ _ hcb (hcredentials _ _) (Option.some.inj h)
        · cases h
          exact Or.inl rfl
      · cases h
        exact Or.inl rfl
    · split at h
      · cases h
        exact Or.inl rfl
      · split at h
        · unfold brskiCoapStage at h
          split at h
          · rw [Option.map_eq_some_iff] at h
            obtain ⟨cb, -, h⟩ := h
            rw [← h]
            exact Or.inl rfl
          · cases h
            exact Or.inl rfl
        · cases h
          exact Or.inl rfl

theorem lt_of_shouldKeepAlive {statusCode : Int} (h : shouldKeepAlive r statusCode = true) :
    statusCode < 400 := by
  simp only [shouldKeepAlive, Bool.and_eq_true, decide_eq_true_eq] at h
  exact h.1.2

/-- What a connection that stays open has for a name after a request. -/
theorem processRequest_name (h : processRequest C A s r = some (next, event))
    (hopen : next.isOpen = true) :
    next.userId = s.userId ∨ next.userId = [] ∨ event.accepts next.userId := by
  obtain ⟨conn, hrequest, rfl⟩ := processRequest_some h
  have hstatus := lt_of_shouldKeepAlive hopen
  unfold estHttpRequest at hrequest
  split at hrequest
  · cases hrequest
    exact Or.inl rfl
  · rename_i enrollReq request hoperation
    rw [Option.bind_eq_bind, Option.bind_eq_some_iff] at hrequest
    obtain ⟨out, hout, hrequest⟩ := hrequest
    cases hrequest
    rcases estHandleEnroll_handled hout with ⟨-, -, hsame⟩ | ⟨auth, hauth, hfollows, hrefused⟩
    · exact Or.inl (by rw [hsame]; rfl)
    · rw [hfollows.verdict, hfollows.left]
      rcases (estEnrollAuth_path hauth).user with hkept | hnamed | hstate
      · exact Or.inl hkept
      · exact Or.inr (hnamed.imp_right fun ⟨call, haccepted, hname⟩ =>
          ⟨call, mem_acceptedCalls haccepted, hname⟩)
      · have hrc := (hrefused .authFail (by rw [hstate]; rfl)).1
        simp [enrollStatus, hrc, errorStatus] at hstatus
  · unfold handleBrski at hrequest
    split at hrequest
    · cases hrequest
      exact Or.inl rfl
    · rw [Option.bind_eq_bind, Option.bind_eq_some_iff] at hrequest
      obtain ⟨auth, hauth, hrequest⟩ := hrequest
      simp only at hrequest
      rcases estBrskiAuth_user hauth with hkept | hnamed | hstate
      · left
        split at hrequest <;> cases hrequest <;> exact hkept
      · right
        have hname := hnamed.imp_right fun ⟨call, haccepted, hname⟩ =>
          (⟨call, mem_acceptedCalls haccepted, hname⟩ :
            ∃ call ∈ acceptedCalls r.ctx (some auth), call.ah.user = some auth.conn.userId)
        split at hrequest <;> cases hrequest <;> exact hname
      · rw [hstate] at hrequest
        cases hrequest
        simp [brskiStatus, errorStatus] at hstatus

end Steps

section Runs

variable {C : Crypto} {A : Asn1Ops}

/-- In every run of a connection whose requests keep no name of an earlier one,
the CA is told nobody or the user that was accepted for the request at hand. -/
theorem user_given_to_ca_accepted {requests : List HttpRequest} {last : ConnState}
    {events : List Event} (hrun : run (processRequest C A) newConnection requests =
      some (last, events))
    (hfresh : Guarded (processRequest C A) (fun s r => ¬ KeepsName C s r) newConnection requests) :
    ∀ event ∈ events, event.Attributed := by
  refine run_outputs ?_ hfresh hrun
  intro s r next event hfresh hstep
  exact processRequest_attributed hstep hfresh

/-- The name that an open connection has was accepted on it, and so was every user
that the CA was told by the time that it was told. -/
structure NamesAccepted (requests : List HttpRequest) (events : List Event) (s : ConnState) :
    Prop where
  kept : s.isOpen = true → s.userId = [] ∨ ∃ event ∈ events, event.accepts s.userId
  told : ∀ before event after, events = before ++ event :: after →
    ∀ call user, event.call = some call → call.request.userId = some user →
      user = [] ∨ ∃ earlier ∈ before ++ [event], earlier.accepts user

theorem NamesAccepted.step {past : List HttpRequest} {events : List Event} {s next : ConnState}
    {r : HttpRequest} {event : Event} (h : NamesAccepted past events s)
    (hstep : processRequest C A s r = some (next, event)) :
    NamesAccepted (past ++ [r]) (events ++ [event]) next := by
  have hkept := h.kept (isOpen_of_processRequest hstep)
  -- what was accepted for this request or before it
  have hname : ∀ user, user = s.userId ∨ user = [] ∨ event.accepts user →
      user = [] ∨ ∃ earlier ∈ events ++ [event], earlier.accepts user := by
    rintro user (rfl | hempty | haccepts)
    · exact hkept.imp_right fun ⟨earlier, hmem, haccepts⟩ =>
        ⟨earlier, List.mem_append_left _ hmem, haccepts⟩
    · exact Or.inl hempty
    · exact Or.inr ⟨event, by simp, haccepts⟩
  constructor
  · intro hopen
    exact hname _ (processRequest_name hstep hopen)
  · intro before other after hsplit call user hcall huser
    cases after using List.reverseRecOn with
    | nil =>
      obtain ⟨rfl, hlast⟩ := List.append_inj' hsplit rfl
      cases hlast
      exact hname user (processRequest_told hstep hcall huser)
    | append_singleton after last _ =>
      have hfront : events = before ++ other :: after := by
        rw [← List.cons_append, ← List.append_assoc] at hsplit
        exact (List.append_inj' hsplit rfl).1
      exact h.told before other after hfront call user hcall huser

/-- In every run of a connection, the CA is told nobody or a user that was
accepted on it, for the request at hand or for an earlier one. -/
theorem user_given_to_ca_accepted_before {requests : List HttpRequest} {last : ConnState}
    {events : List Event} (hrun : run (processRequest C A) newConnection requests =
      some (last, events)) : NamesAccepted requests events last := by
  have hstart : NamesAccepted [] [] newConnection := by
    refine ⟨fun _ => Or.inl rfl, ?_⟩
    intro before event after hsplit
    simp at hsplit
  refine run_history ?_ hstart (guarded_true _ _) hrun
  intro past events s r next event h _ hstep
  exact h.step hstep

end Runs

section Instances

open LibEst.Server.Reference

/-- The reference device on a connection, with this Authorization header. -/
def deviceRequest (header : String) (enrollReq : EnrollReqType) : HttpRequest where
  ctx := authCtx
  server := rfl
  source := (connWith header).source
  connectionHeader := none
  httpVersion := ascii "1.1"
  operation := .enroll enrollReq devRequest

/-- The connection once alice has enrolled. -/
def aliceState : ConnState where
  userId := ascii "alice"
  isOpen := true

theorem deviceRequest_processed {s : ConnState} {header : String} {enrollReq : EnrollReqType}
    {auth : AuthResult} (hopen : s.isOpen = true) (hreq : enrollReq ≠ .serverKeygen)
    (hauth : estEnrollAuth hostCrypto authCtx (resetPerRequestAttributes s (connWith header).source)
      devSession none enrollReq clientBody = some auth)
    (hstate : auth.state.authorized = true) (hcsr : auth.csr = none)
    (huser : auth.conn.userId = ascii "alice") (hstatus : auth.conn.statusCode = -1) :
    processRequest hostCrypto hostAsn1 s (deviceRequest header enrollReq) =
      some (aliceState, { call := (askCa authCtx issue devRequest enrollReq auth).call
                          accepted := acceptedCalls authCtx (some auth) }) := by
  have hout := devRequest_enrolled hreq rfl rfl rfl rfl hauth hstate (Or.inl hcsr)
  have hkept : shouldKeepAlive (deviceRequest header enrollReq) (-1) = true := by
    have hversion : (ascii "1.1").take 3 = ascii "1.1" := by decide
    simp [shouldKeepAlive, wantsKeepAlive, deviceRequest, hversion]
  have hfinal : enrollStatus (askCa authCtx issue devRequest enrollReq auth) devRequest.writes =
      -1 := hstatus
  have hrequest : estHttpRequest hostCrypto hostAsn1 (deviceRequest header enrollReq)
      (resetPerRequestAttributes s (deviceRequest header enrollReq).source) =
      some ({ auth.conn with statusCode := -1 },
        { call := (askCa authCtx issue devRequest enrollReq auth).call
          accepted := acceptedCalls authCtx (some auth) }) := by
    simp only [estHttpRequest, deviceRequest, hout, Option.bind_eq_bind, Option.bind_some, hfinal]
    rfl
  unfold processRequest
  rw [if_pos hopen, hrequest]
  simp only [Option.bind_eq_bind, Option.bind_some, hkept, huser]
  rfl

/-- With its own header a request of alice is authorized, whatever name was there. -/
theorem alice_processed (s : ConnState) (hopen : s.isOpen = true) {enrollReq : EnrollReqType}
    (hreq : enrollReq ≠ .serverKeygen) :
    ∃ event, processRequest hostCrypto hostAsn1 s
      (deviceRequest "Basic YWxpY2U6cHc=" enrollReq) = some (aliceState, event) := by
  obtain ⟨auth, hauth, hstate, hcsr, hconn, -⟩ := aliceHeader_authorized authCtx
    (show (resetPerRequestAttributes s aliceHeader.source).source = aliceHeader.source from rfl)
    rfl enrollReq rfl rfl rfl rfl
  exact ⟨_, deviceRequest_processed hopen hreq hauth (by rw [hstate]; rfl) hcsr (by rw [hconn])
    (by rw [hconn]; rfl)⟩

/-- A header that names the user leaves no old name. -/
theorem alice_fresh (s : ConnState) (enrollReq : EnrollReqType) :
    ¬ KeepsName hostCrypto s (deviceRequest "Basic YWxpY2U6cHc=" enrollReq) := by
  rintro ⟨-, hkept, hunnamed⟩
  have hbody : devRequest.body = clientBody := by simp only [devRequest]
  have hunnamed : Unnamed hostCrypto authCtx (resetPerRequestAttributes s aliceHeader.source)
      devRequest.ssl devRequest.pathSeg enrollReq devRequest.body := hunnamed
  rw [hbody] at hunnamed
  obtain ⟨r, hr, -, hnot⟩ := hunnamed.taken rfl hkept
  obtain ⟨auth, hauth, -, -, hconn, call, haccepted, hname⟩ := aliceHeader_authorized authCtx
    (show (resetPerRequestAttributes s aliceHeader.source).source = aliceHeader.source from rfl)
    rfl enrollReq rfl rfl rfl rfl
  have hsame : r = auth := Option.some.inj (hr.symm.trans hauth)
  rw [hsame] at hnot
  refine hnot (Or.inr ⟨call, haccepted, ?_⟩)
  rw [hname, hconn]

theorem alice_told_alice : ∃ last events,
    run (processRequest hostCrypto hostAsn1) newConnection
      [deviceRequest "Basic YWxpY2U6cHc=" .simpleEnroll,
        deviceRequest "Basic YWxpY2U6cHc=" .reenroll] = some (last, events) ∧
    ∀ event ∈ events, event.Attributed := by
  obtain ⟨first, hfirst⟩ := alice_processed newConnection rfl
    (show EnrollReqType.simpleEnroll ≠ .serverKeygen by decide)
  obtain ⟨second, hsecond⟩ := alice_processed aliceState rfl
    (show EnrollReqType.reenroll ≠ .serverKeygen by decide)
  have hrun := run_cons_iff.mpr ⟨_, _, _, hfirst,
    run_cons_iff.mpr ⟨_, _, _, hsecond, run_nil _, rfl⟩, rfl⟩
  refine ⟨_, _, hrun, user_given_to_ca_accepted hrun ?_⟩
  exact ⟨alice_fresh _ _, fun _ _ _ => ⟨alice_fresh _ _, fun _ _ _ => trivial⟩⟩

/-- The second request has a header of no known scheme and gets through on the
certificate of the device. The CA is told that it is alice. -/
theorem device_told_as_alice : ∃ last events,
    run (processRequest hostCrypto hostAsn1) newConnection
      [deviceRequest "Basic YWxpY2U6cHc=" .simpleEnroll, deviceRequest "Token" .reenroll] =
        some (last, events) ∧
    ¬ ∀ event ∈ events, event.Attributed := by
  obtain ⟨first, hfirst⟩ := alice_processed newConnection rfl
    (show EnrollReqType.simpleEnroll ≠ .serverKeygen by decide)
  have hauth : estEnrollAuth hostCrypto authCtx
      (resetPerRequestAttributes aliceState (connWith "Token").source) devSession none .reenroll
      clientBody = some { state := .certAuth, hdrResult := .bad, calls := [], csr := none,
                          conn := resetPerRequestAttributes aliceState (connWith "Token").source } := by
    decide
  have hsecond := deviceRequest_processed rfl (by decide) hauth rfl rfl rfl rfl
  have hrun := run_cons_iff.mpr ⟨_, _, _, hfirst,
    run_cons_iff.mpr ⟨_, _, _, hsecond, run_nil _, rfl⟩, rfl⟩
  refine ⟨_, _, hrun, ?_⟩
  intro hclaim
  have htold := hclaim _ (List.mem_cons_of_mem _ (List.mem_singleton_self _))
  rcases htold _ (ascii "alice") rfl rfl with hempty | ⟨call, hnone, -⟩
  · cases hempty
  · cases hnone

end Instances

end LibEst.Server.Connection
