import LibEst.Client.RequestTarget
import LibEst.Client.ApiCases
import LibEst.Client.ReferenceEnv

/-! The calls that set a client up: where it talks to and with which credentials. Each
writes some of its fields before it has looked at all of its arguments. -/
namespace LibEst.Client.Configuration

open LibEst.Basic LibEst.OpenSsl LibEst.Lib.ByteString LibEst.Lib.Machine LibEst.Lib.Trace
open LibEst.SafeStr LibEst.Server.AuthHeader
open LibEst.Client.Context LibEst.Client.AuthHeader LibEst.Client.Http LibEst.Client.Request
open LibEst.Client.Answer LibEst.Client.RequestTarget
open LibEst.Client.ApiCases (AcceptsServer)
open LibEst.Client.Api (estMaxServernameLen estMaxPathSegmentLen)

section Calls

/-- The context with the certificate and the key that it has for TLS. -/
structure ConfigCtx extends ClientCtx where
  clientCert : Option X509
  clientKey : Option EvpPkey

inductive ConfigCall where
  | setServer (server : Option Bytes) (port : Int) (pathSegment : Option Bytes)
  | setUidPw (uid pwd : Option Bytes)
  | setAuth (uid pwd : Option Bytes) (clientCert : Option X509) (privateKey : Option EvpPkey)

variable (env : ClientEnv) (allocated : Bool)

/-- The segment before is given up first; `allocated` says whether there is a block for
the new one. -/
def estStorePathSegment (ctx : ConfigCtx) (segment : Bytes) : ConfigCtx × EstError :=
  let ctx := { ctx with uriPathSegment := none }
  if ¬ allocated then (ctx, .malloc)
  else ({ ctx with uriPathSegment := some segment }, .none)

/-- Without a segment the one before stays. -/
def estClientSetServer (ctx : ConfigCtx) (server : Option Bytes) (port : Int)
    (pathSegment : Option Bytes) : ConfigCtx × EstError :=
  if ¬ ctx.estClientInitialized then (ctx, .clientNotInitialized)
  else
    match server with
    | none => (ctx, .invalidServerName)
    | some server =>
        if port ≤ 0 ∨ 65535 < port then (ctx, .invalidPortNum)
        else if estMaxServernameLen < server.length then (ctx, .invalidServerName)
        else
          let ctx := { ctx with
            estServer := strcpyS estMaxServernameLen server []
            estPortNum := port.toNat }
          match pathSegment with
          | none => (ctx, .none)
          | some segment =>
              if segment = [] then (ctx, .httpInvalidPathSegment)
              else if estMaxPathSegmentLen < segment.length then (ctx, .httpInvalidPathSegment)
              else if env.parsePathSeg segment ≠ .none then (ctx, env.parsePathSeg segment)
              else estStorePathSegment allocated ctx segment

def estClientSetUidPw (ctx : ConfigCtx) (uid pwd : Option Bytes) : ConfigCtx × EstError :=
  match uid, pwd with
  | some _, none => (ctx, .invalidParameters)
  | none, some _ => (ctx, .invalidParameters)
  | none, none => (ctx, .none)
  | some uid, some pwd =>
      if maxUidpwd < uid.length then (ctx, .invalidParameters)
      else
        let ctx := { ctx with userid := strcpyS maxUidpwd uid [] }
        if maxUidpwd < pwd.length then (ctx, .invalidParameters)
        else ({ ctx with password := strcpyS maxUidpwd pwd [] }, .none)

/-- The certificate and the key are in the context before TLS is asked for them. -/
def estClientSetAuth (ctx : ConfigCtx) (uid pwd : Option Bytes) (clientCert : Option X509)
    (privateKey : Option EvpPkey) : ConfigCtx × EstError :=
  match estClientSetUidPw ctx uid pwd with
  | (ctx, .none) =>
      let ctx := { ctx with
        authMode := .none
        clientKey := privateKey
        clientCert := clientCert }
      match clientCert, privateKey with
      | some cert, some key =>
          if ¬ env.setCertAndKey cert key then (ctx, .clientInvalidKey) else (ctx, .none)
      | _, _ => (ctx, .none)
  | (ctx, rv) => (ctx, rv)

def configure (ctx : ConfigCtx) : ConfigCall → ConfigCtx × EstError
  | .setServer server port pathSegment =>
      estClientSetServer env allocated ctx server port pathSegment
  | .setUidPw uid pwd => estClientSetUidPw ctx uid pwd
  | .setAuth uid pwd clientCert privateKey => estClientSetAuth env ctx uid pwd clientCert privateKey

/-- With memory at hand the calls do to the rest of the context what the interface of
the client says. -/
theorem estClientSetServer_api (ctx : ConfigCtx) (server : Option Bytes) (port : Int)
    (pathSegment : Option Bytes) :
    ((estClientSetServer env true ctx server port pathSegment).1.toClientCtx,
        (estClientSetServer env true ctx server port pathSegment).2) =
      Api.estClientSetServer env ctx.toClientCtx server port pathSegment := by
  unfold estClientSetServer Api.estClientSetServer estStorePathSegment
  by_cases hinit : ctx.estClientInitialized
  · rw [if_neg (not_not.mpr hinit), if_neg (not_not.mpr hinit)]
    cases server with
    | none => rfl
    | some name =>
      dsimp only
      by_cases hport : port ≤ 0 ∨ 65535 < port
      · rw [if_pos hport, if_pos hport]
      · rw [if_neg hport, if_neg hport]
        split
        · rfl
        · cases pathSegment with
          | none => rfl
          | some segment =>
            dsimp only
            by_cases hnil : segment = []
            · rw [if_pos hnil, if_pos (Or.inl hnil)]
            · by_cases hlong : estMaxPathSegmentLen < segment.length
              · rw [if_neg hnil, if_pos hlong, if_pos (Or.inr hlong)]
              · rw [if_neg hnil, if_neg hlong, if_neg (not_or.mpr ⟨hnil, hlong⟩)]
                split <;> rfl
  · rw [if_pos hinit, if_pos hinit]

theorem estClientSetUidPw_api (ctx : ConfigCtx) (uid pwd : Option Bytes) :
    ((estClientSetUidPw ctx uid pwd).1.toClientCtx, (estClientSetUidPw ctx uid pwd).2) =
      Api.estClientSetUidPw ctx.toClientCtx uid pwd := by
  unfold estClientSetUidPw Api.estClientSetUidPw
  split
  · rfl
  · rfl
  · rfl
  · dsimp only
    split
    · rfl
    · split <;> rfl

theorem estClientSetAuth_api (ctx : ConfigCtx) (uid pwd : Option Bytes) (clientCert : Option X509)
    (privateKey : Option EvpPkey) :
    ((estClientSetAuth env ctx uid pwd clientCert privateKey).1.toClientCtx,
        (estClientSetAuth env ctx uid pwd clientCert privateKey).2) =
      Api.estClientSetAuth env ctx.toClientCtx uid pwd clientCert privateKey := by
  have hsame := estClientSetUidPw_api ctx uid pwd
  unfold estClientSetAuth Api.estClientSetAuth
  rw [← hsame]
  generalize estClientSetUidPw ctx uid pwd = result
  obtain ⟨ctx', rv⟩ := result
  cases rv with
  | none =>
    cases clientCert with
    | none => rfl
    | some cert =>
      cases privateKey with
      | none => rfl
      | some key =>
        dsimp only
        cases env.setCertAndKey cert key <;> rfl
  | _ => rfl

end Calls

section Exactness

variable {env : ClientEnv} {allocated : Bool} {ctx : ConfigCtx}

/-- What the application has told the client. -/
structure Settings where
  destination : Destination
  userid : Bytes
  password : Bytes
  clientCert : Option X509
  clientKey : Option EvpPkey

def settings (ctx : ConfigCtx) : Settings where
  destination := destination ctx.toClientCtx
  userid := ctx.userid
  password := ctx.password
  clientCert := ctx.clientCert
  clientKey := ctx.clientKey

/-- A refused call leaves the settings alone, and a server that is taken is the one that
was given, with the segment that was given. -/
structure AllOrNothing (env : ClientEnv) (allocated : Bool) (ctx : ConfigCtx) (call : ConfigCall) :
    Prop where
  nothing : (configure env allocated ctx call).2 ≠ .none →
    settings (configure env allocated ctx call).1 = settings ctx
  all : ∀ server port pathSegment, call = .setServer server port pathSegment →
    (configure env allocated ctx call).2 = .none → ∃ name, server = some name ∧
      destination (configure env allocated ctx call).1.toClientCtx = ⟨name, port, pathSegment⟩

def ValidSegment (env : ClientEnv) (segment : Bytes) : Prop :=
  segment ≠ [] ∧ segment.length ≤ estMaxPathSegmentLen ∧ env.parsePathSeg segment = .none

/-- Both credentials are of a length that fits. -/
def CredentialsFit (uid pwd : Bytes) : Prop := uid.length ≤ maxUidpwd ∧ pwd.length ≤ maxUidpwd

/-- Only a password that is refused behind a user name that fits leaves a trace. -/
def UserKept (ctx : ConfigCtx) (uid pwd : Option Bytes) : Prop :=
  ∀ u p, uid = some u → pwd = some p → u.length ≤ maxUidpwd → maxUidpwd < p.length → ctx.userid = u

/-- There are no credentials, or both, of lengths that fit. -/
inductive CredentialsTaken : Option Bytes → Option Bytes → Prop
  | absent : CredentialsTaken none none
  | fit (u p : Bytes) (h : CredentialsFit u p) : CredentialsTaken (some u) (some p)

/-- The credentials, the certificate and the key of a call are those of the context. -/
def SameIdentity (ctx : ConfigCtx) (uid pwd : Option Bytes) (clientCert : Option X509)
    (privateKey : Option EvpPkey) : Prop :=
  (∀ u, uid = some u → ctx.userid = u) ∧ (∀ p, pwd = some p → ctx.password = p) ∧
    ctx.clientCert = clientCert ∧ ctx.clientKey = privateKey

/-- Nothing is in the context before it is refused. -/
def NothingEarly (env : ClientEnv) (allocated : Bool) (ctx : ConfigCtx) : ConfigCall → Prop
  | .setServer server port pathSegment =>
      ∀ name, server = some name → AcceptsServer ctx.toClientCtx name port →
        match pathSegment with
        | none => ctx.uriPathSegment = none
        | some segment =>
            ValidSegment env segment ∧ allocated = true ∨
              ctx.estServer = name ∧ (ctx.estPortNum : Int) = port ∧
                (ValidSegment env segment → ctx.uriPathSegment = none)
  | .setUidPw uid pwd => UserKept ctx uid pwd
  | .setAuth uid pwd clientCert privateKey =>
      UserKept ctx uid pwd ∧
        ∀ cert key, clientCert = some cert → privateKey = some key → CredentialsTaken uid pwd →
          env.setCertAndKey cert key = false → SameIdentity ctx uid pwd clientCert privateKey

theorem strcpyS_of_le {dmax : Nat} {src : Bytes} (h : src.length ≤ dmax) :
    strcpyS dmax src [] = src := by
  unfold strcpyS
  split
  · rfl
  · rw [List.append_nil, List.take_of_length_le h]

/-- The context with another destination. -/
def redirected (ctx : ConfigCtx) (name : Bytes) (port : Int) (segment : Option Bytes) : ConfigCtx :=
  { ctx with estServer := name, estPortNum := port.toNat, uriPathSegment := segment }

section Accepted

variable {name : Bytes} {port : Int}

theorem setServer_unlabelled (h : AcceptsServer ctx.toClientCtx name port) :
    estClientSetServer env allocated ctx (some name) port none =
      (redirected ctx name port ctx.uriPathSegment, .none) := by
  obtain ⟨hinit, hlow, hhigh, hlength⟩ := h
  have hport : ¬ (port ≤ 0 ∨ 65535 < port) := by omega
  unfold estClientSetServer
  rw [if_neg (not_not.mpr hinit)]
  simp only [if_neg hport, if_neg (Nat.not_lt.mpr hlength), strcpyS_of_le hlength]
  rfl

/-- The segment is looked at when the server is in place. -/
theorem setServer_labelled (h : AcceptsServer ctx.toClientCtx name port) (segment : Bytes) :
    estClientSetServer env allocated ctx (some name) port (some segment) =
      if segment = [] then (redirected ctx name port ctx.uriPathSegment, .httpInvalidPathSegment)
      else if estMaxPathSegmentLen < segment.length then
        (redirected ctx name port ctx.uriPathSegment, .httpInvalidPathSegment)
      else if env.parsePathSeg segment ≠ .none then
        (redirected ctx name port ctx.uriPathSegment, env.parsePathSeg segment)
      else if ¬ allocated then (redirected ctx name port none, .malloc)
      else (redirected ctx name port (some segment), .none) := by
  obtain ⟨hinit, hlow, hhigh, hlength⟩ := h
  have hport : ¬ (port ≤ 0 ∨ 65535 < port) := by omega
  unfold estClientSetServer
  rw [if_neg (not_not.mpr hinit)]
  simp only [if_neg hport, if_neg (Nat.not_lt.mpr hlength), strcpyS_of_le hlength]
  rfl

theorem setServer_valid (h : AcceptsServer ctx.toClientCtx name port) {segment : Bytes}
    (hvalid : ValidSegment env segment) :
    estClientSetServer env allocated ctx (some name) port (some segment) =
      if ¬ allocated then (redirected ctx name port none, .malloc)
      else (redirected ctx name port (some segment), .none) := by
  rw [setServer_labelled h, if_neg hvalid.1, if_neg (Nat.not_lt.mpr hvalid.2.1),
    if_neg (not_not.mpr hvalid.2.2)]

theorem setServer_invalid (h : AcceptsServer ctx.toClientCtx name port) {segment : Bytes}
    (hinvalid : ¬ ValidSegment env segment) :
    ∃ rv, rv ≠ .none ∧ estClientSetServer env allocated ctx (some name) port (some segment) =
      (redirected ctx name port ctx.uriPathSegment, rv) := by
  rw [setServer_labelled h]
  by_cases hnil : segment = []
  · exact ⟨.httpInvalidPathSegment, nofun, if_pos hnil⟩
  · rw [if_neg hnil]
    by_cases hlong : estMaxPathSegmentLen < segment.length
    · exact ⟨.httpInvalidPathSegment, nofun, if_pos hlong⟩
    · rw [if_neg hlong]
      by_cases hparse : env.parsePathSeg segment = .none
      · exact absurd ⟨hnil, Nat.not_lt.mp hlong, hparse⟩ hinvalid
      · exact ⟨_, hparse, if_pos hparse⟩

end Accepted

theorem estClientSetServer_refused {server : Option Bytes} {port : Int}
    (h : ∀ name, server = some name → ¬ AcceptsServer ctx.toClientCtx name port)
    (pathSegment : Option Bytes) :
    ∃ rv, rv ≠ .none ∧
      estClientSetServer env allocated ctx server port pathSegment = (ctx, rv) := by
  unfold estClientSetServer
  by_cases hinit : ctx.estClientInitialized
  · rw [if_neg (not_not.mpr hinit)]
    cases server with
    | none => exact ⟨.invalidServerName, nofun, rfl⟩
    | some name =>
      have hnot := h name rfl
      by_cases hport : port ≤ 0 ∨ 65535 < port
      · exact ⟨.invalidPortNum, nofun, if_pos hport⟩
      · by_cases hlength : estMaxServernameLen < name.length
        · refine ⟨.invalidServerName, nofun, ?_⟩
          simp only [if_neg hport, if_pos hlength]
        · exact absurd ⟨hinit, by omega, by omega, Nat.not_lt.mp hlength⟩ hnot
  · exact ⟨.clientNotInitialized, nofun, if_pos hinit⟩

theorem destination_redirected {name : Bytes} {port : Int} (hport : 0 < port)
    (segment : Option Bytes) :
    destination (redirected ctx name port segment).toClientCtx = ⟨name, port, segment⟩ := by
  have hnat : (port.toNat : Int) = port := Int.toNat_of_nonneg hport.le
  simp only [destination, redirected, hnat]

theorem settings_redirected {name : Bytes} {port : Int} (hport : 0 < port)
    (segment : Option Bytes) :
    settings (redirected ctx name port segment) = settings ctx ↔
      ctx.estServer = name ∧ (ctx.estPortNum : Int) = port ∧ ctx.uriPathSegment = segment := by
  have hsettings : settings (redirected ctx name port segment) =
      { settings ctx with destination := ⟨name, port, segment⟩ } := by
    have hdestination : destination (redirected ctx name port segment).toClientCtx =
      ⟨name, port, segment⟩ := destination_redirected hport segment
    rw [← hdestination]
    rfl
  rw [hsettings]
  simp only [settings, destination, Settings.mk.injEq, Destination.mk.injEq, and_true]
  constructor
  · rintro ⟨hserver, hsame, hsegment⟩
    exact ⟨hserver.symm, hsame.symm, hsegment.symm⟩
  · rintro ⟨hserver, hsame, hsegment⟩
    exact ⟨hserver.symm, hsame.symm, hsegment.symm⟩

/-- A call whose result is refused and has changed nothing but the destination. -/
theorem allOrNothing_refused_iff {call : ConfigCall} {ctx' : ConfigCtx} {rv : EstError}
    (h : configure env allocated ctx call = (ctx', rv)) (hrv : rv ≠ .none) :
    AllOrNothing env allocated ctx call ↔ settings ctx' = settings ctx := by
  constructor
  · intro hall
    have hnothing := hall.nothing
    rw [h] at hnothing
    exact hnothing hrv
  · intro hsame
    constructor
    · intro _
      rw [h]
      exact hsame
    · intro server port pathSegment _ hnone
      rw [h] at hnone
      exact absurd hnone hrv

/-- A server is taken with this destination. -/
theorem allOrNothing_taken_iff {name : Bytes} {port : Int} {pathSegment : Option Bytes}
    {ctx' : ConfigCtx}
    (h : estClientSetServer env allocated ctx (some name) port pathSegment = (ctx', .none)) :
    AllOrNothing env allocated ctx (.setServer (some name) port pathSegment) ↔
      destination ctx'.toClientCtx = ⟨name, port, pathSegment⟩ := by
  have hresult : configure env allocated ctx (.setServer (some name) port pathSegment) =
    (ctx', .none) := h
  constructor
  · intro hall
    obtain ⟨other, hother, hsame⟩ := hall.all (some name) port pathSegment rfl (by rw [hresult])
    rw [hresult, ← Option.some.inj hother] at hsame
    exact hsame
  · intro hsame
    constructor
    · intro hrv
      rw [hresult] at hrv
      exact absurd rfl hrv
    · rintro _ _ _ ⟨⟩ -
      refine ⟨name, rfl, ?_⟩
      rw [hresult]
      exact hsame

section Accepted

variable {name : Bytes} {port : Int}

theorem unlabelled_iff (h : AcceptsServer ctx.toClientCtx name port) :
    AllOrNothing env allocated ctx (.setServer (some name) port none) ↔
      ctx.uriPathSegment = none := by
  rw [allOrNothing_taken_iff (setServer_unlabelled h), destination_redirected h.2.1]
  simp only [Destination.mk.injEq, true_and]

theorem labelled_iff (h : AcceptsServer ctx.toClientCtx name port) (segment : Bytes) :
    AllOrNothing env allocated ctx (.setServer (some name) port (some segment)) ↔
      (ValidSegment env segment ∧ allocated = true ∨
        ctx.estServer = name ∧ (ctx.estPortNum : Int) = port ∧
          (ValidSegment env segment → ctx.uriPathSegment = none)) := by
  have hport : 0 < port := h.2.1
  by_cases hvalid : ValidSegment env segment
  · have hresult : estClientSetServer env allocated ctx (some name) port (some segment) =
      if ¬ allocated then (redirected ctx name port none, .malloc)
      else (redirected ctx name port (some segment), .none) := setServer_valid h hvalid
    by_cases hblock : allocated
    · rw [if_neg (not_not.mpr hblock)] at hresult
      rw [allOrNothing_taken_iff hresult, destination_redirected hport]
      exact ⟨fun _ => Or.inl ⟨hvalid, hblock⟩, fun _ => rfl⟩
    · rw [if_pos hblock] at hresult
      have hrefused : configure env allocated ctx (.setServer (some name) port (some segment)) =
        (redirected ctx name port none, .malloc) := hresult
      rw [allOrNothing_refused_iff hrefused nofun, settings_redirected hport]
      simp only [hblock, hvalid, Bool.false_eq_true, and_false, false_or, forall_const]
  · obtain ⟨rv, hrv, hrefused⟩ : ∃ rv, rv ≠ .none ∧
        configure env allocated ctx (.setServer (some name) port (some segment)) =
          (redirected ctx name port ctx.uriPathSegment, rv) := setServer_invalid h hvalid
    rw [allOrNothing_refused_iff hrefused hrv, settings_redirected hport]
    simp only [hvalid, false_and, false_or, false_implies, and_true]

end Accepted

theorem setServer_iff (server : Option Bytes) (port : Int) (pathSegment : Option Bytes) :
    AllOrNothing env allocated ctx (.setServer server port pathSegment) ↔
      NothingEarly env allocated ctx (.setServer server port pathSegment) := by
  by_cases haccepts : ∃ name, server = some name ∧ AcceptsServer ctx.toClientCtx name port
  · obtain ⟨name, rfl, haccepts⟩ := haccepts
    cases pathSegment with
    | none =>
      rw [unlabelled_iff haccepts]
      exact ⟨fun h _ _ _ => h, fun h => h name rfl haccepts⟩
    | some segment =>
      rw [labelled_iff haccepts]
      exact ⟨fun h _ hother _ => Option.some.inj hother ▸ h, fun h => h name rfl haccepts⟩
  · have hnot (name : Bytes) (hname : server = some name) :
        ¬ AcceptsServer ctx.toClientCtx name port :=
      fun haccept => haccepts ⟨name, hname, haccept⟩
    obtain ⟨rv, hrv, hresult⟩ :=
      @estClientSetServer_refused env allocated ctx server port hnot pathSegment
    have hrefused : configure env allocated ctx (.setServer server port pathSegment) = (ctx, rv) :=
      hresult
    rw [allOrNothing_refused_iff hrefused hrv]
    exact ⟨fun _ name hname haccept => absurd haccept (hnot name hname), fun _ => rfl⟩

/-- What the credentials are where they are taken. -/
inductive SetUidPw (ctx : ConfigCtx) (uid pwd : Option Bytes) : ConfigCtx × EstError → Prop
  | refused (hkept : UserKept ctx uid pwd) (htaken : ¬ CredentialsTaken uid pwd) :
      SetUidPw ctx uid pwd (ctx, .invalidParameters)
  | half (u p : Bytes) (huid : uid = some u) (hpwd : pwd = some p) (hu : u.length ≤ maxUidpwd)
      (hp : maxUidpwd < p.length) :
      SetUidPw ctx uid pwd ({ ctx with userid := u }, .invalidParameters)
  | absent (huid : uid = none) (hpwd : pwd = none) : SetUidPw ctx uid pwd (ctx, .none)
  | stored (u p : Bytes) (huid : uid = some u) (hpwd : pwd = some p) (hfit : CredentialsFit u p) :
      SetUidPw ctx uid pwd ({ ctx with userid := u, password := p }, .none)

theorem setUidPw_cases (ctx : ConfigCtx) (uid pwd : Option Bytes) :
    SetUidPw ctx uid pwd (estClientSetUidPw ctx uid pwd) := by
  cases uid with
  | none =>
    cases pwd with
    | none => exact .absent rfl rfl
    | some p => exact .refused nofun nofun
  | some u =>
    cases pwd with
    | none => exact .refused nofun nofun
    | some p =>
      unfold estClientSetUidPw
      dsimp only
      by_cases hu : maxUidpwd < u.length
      · rw [if_pos hu]
        refine .refused ?_ ?_
        · rintro _ _ ⟨⟩ ⟨⟩ hfits
          exact absurd hu (Nat.not_lt.mpr hfits)
        · rintro ⟨⟩
          rename_i hfit
          exact absurd hu (Nat.not_lt.mpr hfit.1)
      · have hu' := Nat.not_lt.mp hu
        rw [if_neg hu, strcpyS_of_le hu']
        by_cases hp : maxUidpwd < p.length
        · rw [if_pos hp]
          exact .half u p rfl rfl hu' hp
        · have hp' := Nat.not_lt.mp hp
          rw [if_neg hp, strcpyS_of_le hp']
          exact .stored u p rfl rfl ⟨hu', hp'⟩

theorem settings_userid (u : Bytes) :
    settings { ctx with userid := u } = settings ctx ↔ ctx.userid = u := by
  simp only [settings, Settings.mk.injEq, and_true]
  exact ⟨fun h => h.2.symm, fun h => ⟨rfl, h.symm⟩⟩

/-- A call that is no call for a server is all or nothing where it is taken. -/
theorem allOrNothing_of_none {call : ConfigCall}
    (hcall : ∀ server port pathSegment, call ≠ .setServer server port pathSegment)
    (h : (configure env allocated ctx call).2 = .none) : AllOrNothing env allocated ctx call where
  nothing hrv := absurd h hrv
  all server port pathSegment heq _ := absurd heq (hcall server port pathSegment)

theorem setUidPw_iff (uid pwd : Option Bytes) :
    AllOrNothing env allocated ctx (.setUidPw uid pwd) ↔
      NothingEarly env allocated ctx (.setUidPw uid pwd) := by
  have hcases := setUidPw_cases ctx uid pwd
  have hresult : configure env allocated ctx (.setUidPw uid pwd) = estClientSetUidPw ctx uid pwd :=
    rfl
  change _ ↔ UserKept ctx uid pwd
  generalize estClientSetUidPw ctx uid pwd = result at hcases hresult
  cases hcases with
  | refused hkept htaken =>
    rw [allOrNothing_refused_iff hresult nofun]
    exact ⟨fun _ => hkept, fun _ => rfl⟩
  | half u p huid hpwd hu hp =>
    rw [allOrNothing_refused_iff hresult nofun, settings_userid]
    constructor
    · rintro rfl u' p' huid' _ _ _
      exact Option.some.inj (huid.symm.trans huid')
    · intro h
      exact h u p huid hpwd hu hp
  | absent huid hpwd =>
    refine ⟨fun _ u p hu => ?_, fun _ => allOrNothing_of_none nofun (by rw [hresult])⟩
    rw [huid] at hu
    cases hu
  | stored u p huid hpwd hfit =>
    refine ⟨fun _ u' p' hu hp _ hlong => ?_, fun _ => allOrNothing_of_none nofun (by rw [hresult])⟩
    rw [hpwd, Option.some.injEq] at hp
    exact absurd (hp ▸ hlong) (Nat.not_lt.mpr hfit.2)

/-- With credentials that are refused nothing else is looked at. -/
theorem setAuth_refused {uid pwd : Option Bytes} {ctx' : ConfigCtx}
    (h : estClientSetUidPw ctx uid pwd = (ctx', .invalidParameters)) (clientCert : Option X509)
    (privateKey : Option EvpPkey) :
    configure env allocated ctx (.setAuth uid pwd clientCert privateKey) =
      (ctx', .invalidParameters) := by
  change estClientSetAuth env ctx uid pwd clientCert privateKey = _
  unfold estClientSetAuth
  rw [h]

/-- The context with the credentials of a call that are given. -/
def identified (ctx : ConfigCtx) (uid pwd : Option Bytes) (clientCert : Option X509)
    (privateKey : Option EvpPkey) : ConfigCtx :=
  { ctx with
    userid := uid.getD ctx.userid
    password := pwd.getD ctx.password
    authMode := .none
    clientKey := privateKey
    clientCert := clientCert }

theorem settings_identified {uid pwd : Option Bytes} {clientCert : Option X509}
    {privateKey : Option EvpPkey} :
    settings (identified ctx uid pwd clientCert privateKey) = settings ctx ↔
      SameIdentity ctx uid pwd clientCert privateKey := by
  have hgiven (given : Option Bytes) (text : Bytes) :
      given.getD text = text ↔ ∀ t, given = some t → text = t := by
    cases given with
    | none => simp
    | some t => simp [eq_comm]
  simp only [settings, identified, destination, Settings.mk.injEq, true_and, hgiven, SameIdentity]
  constructor
  · rintro ⟨huser, hpassword, hcert, hkey⟩
    exact ⟨huser, hpassword, hcert.symm, hkey.symm⟩
  · rintro ⟨huser, hpassword, hcert, hkey⟩
    exact ⟨huser, hpassword, hcert.symm, hkey.symm⟩

theorem setAuth_taken {uid pwd : Option Bytes} {ctx' : ConfigCtx}
    (h : estClientSetUidPw ctx uid pwd = (ctx', .none))
    (hctx : ctx' = { ctx with userid := uid.getD ctx.userid, password := pwd.getD ctx.password })
    (clientCert : Option X509) (privateKey : Option EvpPkey) :
    configure env allocated ctx (.setAuth uid pwd clientCert privateKey) =
      (identified ctx uid pwd clientCert privateKey,
        match clientCert, privateKey with
        | some cert, some key => if ¬ env.setCertAndKey cert key then .clientInvalidKey else .none
        | _, _ => .none) := by
  change estClientSetAuth env ctx uid pwd clientCert privateKey = _
  unfold estClientSetAuth
  rw [h, hctx]
  cases clientCert with
  | none => rfl
  | some cert =>
    cases privateKey with
    | none => rfl
    | some key =>
      dsimp only
      split <;> rfl

/-- Where the credentials are taken, only TLS may turn the call down. -/
theorem setAuth_taken_iff {uid pwd : Option Bytes} {ctx' : ConfigCtx}
    (h : estClientSetUidPw ctx uid pwd = (ctx', .none))
    (hctx : ctx' = { ctx with userid := uid.getD ctx.userid, password := pwd.getD ctx.password })
    (clientCert : Option X509) (privateKey : Option EvpPkey) :
    AllOrNothing env allocated ctx (.setAuth uid pwd clientCert privateKey) ↔
      ∀ cert key, clientCert = some cert → privateKey = some key →
        env.setCertAndKey cert key = false → SameIdentity ctx uid pwd clientCert privateKey := by
  have hresult := @setAuth_taken env allocated ctx uid pwd ctx' h hctx clientCert privateKey
  by_cases hturned : ∃ cert key, clientCert = some cert ∧ privateKey = some key ∧
      env.setCertAndKey cert key = false
  · obtain ⟨cert, key, rfl, rfl, hturned⟩ := hturned
    dsimp only at hresult
    rw [hturned, if_pos Bool.false_ne_true] at hresult
    rw [allOrNothing_refused_iff hresult nofun, settings_identified]
    exact ⟨fun h _ _ _ _ _ => h, fun h => h cert key rfl rfl hturned⟩
  · have hnone : (configure env allocated ctx (.setAuth uid pwd clientCert privateKey)).2 = .none := by
      rw [hresult]
      dsimp only
      split
      · rename_i cert key
        rw [if_neg]
        intro hnot
        exact hturned ⟨cert, key, rfl, rfl, by simpa using hnot⟩
      · rfl
    refine ⟨fun _ cert key hcert hkey hfalse => ?_, fun _ => allOrNothing_of_none nofun hnone⟩
    exact absurd ⟨cert, key, hcert, hkey, hfalse⟩ hturned

theorem setAuth_iff (uid pwd : Option Bytes) (clientCert : Option X509)
    (privateKey : Option EvpPkey) :
    AllOrNothing env allocated ctx (.setAuth uid pwd clientCert privateKey) ↔
      NothingEarly env allocated ctx (.setAuth uid pwd clientCert privateKey) := by
  have huid := @setUidPw_iff env allocated ctx uid pwd
  have hcases := setUidPw_cases ctx uid pwd
  generalize hresult : estClientSetUidPw ctx uid pwd = result at hcases
  have hboth {taken : Prop} (htaken : taken ↔ ∀ cert key, clientCert = some cert →
        privateKey = some key → env.setCertAndKey cert key = false →
          SameIdentity ctx uid pwd clientCert privateKey)
      (hkept : UserKept ctx uid pwd) (hcredentials : CredentialsTaken uid pwd) :
      taken ↔ NothingEarly env allocated ctx (.setAuth uid pwd clientCert privateKey) := by
    rw [htaken]
    constructor
    · intro h
      exact ⟨hkept, fun cert key hcert hkey _ => h cert key hcert hkey⟩
    · intro h cert key hcert hkey
      exact h.2 cert key hcert hkey hcredentials
  have hturned {ctx' : ConfigCtx} (h : estClientSetUidPw ctx uid pwd = (ctx', .invalidParameters))
      (hnot : ¬ CredentialsTaken uid pwd) :
      AllOrNothing env allocated ctx (.setAuth uid pwd clientCert privateKey) ↔
        NothingEarly env allocated ctx (.setAuth uid pwd clientCert privateKey) := by
    have hsame : configure env allocated ctx (.setUidPw uid pwd) = (ctx', .invalidParameters) := h
    rw [allOrNothing_refused_iff (setAuth_refused h clientCert privateKey) nofun,
      ← allOrNothing_refused_iff hsame nofun, huid]
    exact ⟨fun h => ⟨h, fun _ _ _ _ htaken => absurd htaken hnot⟩, And.left⟩
  cases hcases with
  | refused hkept htaken => exact hturned hresult htaken
  | half u p hu hp hshort hlong =>
    apply hturned hresult
    rw [hu, hp]
    rintro ⟨⟩
    rename_i hfit
    exact absurd hfit.2 (Nat.not_le.mpr hlong)
  | absent hu hp =>
    subst hu hp
    exact hboth (setAuth_taken_iff hresult rfl clientCert privateKey) nofun .absent
  | stored u p hu hp hfit =>
    subst hu hp
    refine hboth (setAuth_taken_iff hresult rfl clientCert privateKey) ?_ (.fit u p hfit)
    rintro _ _ - ⟨⟩ _ hlong
    exact absurd hfit.2 (Nat.not_le.mpr hlong)

end Exactness

section Word

variable {env : ClientEnv} {allocated : Bool} {ctx : ConfigCtx}

/-- Configuration calls are all or nothing exactly where nothing is in the context before
it is refused, and in every run behind one the requests go where the context says, until
the server is set again. -/
theorem configuration_all_or_nothing_iff (env : ClientEnv) (allocated : Bool) (ctx : ConfigCtx)
    (call : ConfigCall) :
    (AllOrNothing env allocated ctx call ↔ NothingEarly env allocated ctx call) ∧
      ∀ inputs last outs, (∀ input ∈ inputs, KeepsServer input.1) →
        run (Api.step env) (some (configure env allocated ctx call).1.toClientCtx) inputs =
            some (last, outs) →
          ∀ e ∈ Api.allEvents outs,
            GoesTo env (destination (configure env allocated ctx call).1.toClientCtx) e := by
  constructor
  · cases call with
    | setServer server port pathSegment => exact setServer_iff server port pathSegment
    | setUidPw uid pwd => exact setUidPw_iff uid pwd
    | setAuth uid pwd clientCert privateKey => exact setAuth_iff uid pwd clientCert privateKey
  · intro inputs last outs hcalls hrun
    exact run_goesTo (by rintro _ ⟨⟩; rfl) hcalls hrun

/-- A client of some server, without certificate. -/
def plainClient : ConfigCtx where
  toClientCtx := Reference.hostCtx
  clientCert := none
  clientKey := none

def tenantClient : ConfigCtx :=
  (configure ReferenceEnv.clientEnv true plainClient
    (.setServer (some (ascii "est.example")) 443 (some (ascii "tenant")))).1

theorem configuration_all_or_nothing_tenant :
    AllOrNothing ReferenceEnv.clientEnv true plainClient
        (.setServer (some (ascii "est.example")) 443 (some (ascii "tenant"))) ∧
      ∃ last outs,
        run (Api.step ReferenceEnv.clientEnv) (some tenantClient.toClientCtx)
            [(.getCacerts, ReferenceEnv.serving ReferenceEnv.cacertsAnswer ReferenceEnv.unreachable)] =
          some (last, outs) ∧ (Api.allEvents outs).length = 1 ∧
        ∀ e ∈ Api.allEvents outs,
          GoesTo ReferenceEnv.clientEnv ⟨ascii "est.example", 443, some (ascii "tenant")⟩ e := by
  have hearly : NothingEarly ReferenceEnv.clientEnv true plainClient
      (.setServer (some (ascii "est.example")) 443 (some (ascii "tenant"))) := by
    rintro name - -
    exact Or.inl ⟨⟨by decide, by decide, rfl⟩, rfl⟩
  have hword := configuration_all_or_nothing_iff ReferenceEnv.clientEnv true plainClient
    (.setServer (some (ascii "est.example")) 443 (some (ascii "tenant")))
  refine ⟨hword.1.mpr hearly, ?_⟩
  have hsent : (run (Api.step ReferenceEnv.clientEnv) (some tenantClient.toClientCtx)
      [(.getCacerts, ReferenceEnv.serving ReferenceEnv.cacertsAnswer ReferenceEnv.unreachable)]).map
        (fun result => (Api.allEvents result.2).length) = some 1 := by decide +kernel
  obtain ⟨⟨last, outs⟩, hrun, hlength⟩ := Option.map_eq_some_iff.mp hsent
  have hdestination : destination tenantClient.toClientCtx =
      ⟨ascii "est.example", 443, some (ascii "tenant")⟩ := rfl
  refine ⟨last, outs, hrun, hlength, ?_⟩
  rw [← hdestination]
  exact hword.2 _ last outs (by simp [KeepsServer]) hrun

/-- A segment that is refused leaves the server that came with it, and a server without
a segment keeps the one from before. -/
theorem configuration_not_all_or_nothing :
    ¬ AllOrNothing ReferenceEnv.clientEnv true plainClient
        (.setServer (some (ascii "est.example")) 443 (some [])) ∧
      ¬ AllOrNothing ReferenceEnv.clientEnv true tenantClient
        (.setServer (some (ascii "est.example")) 443 none) := by
  constructor
  · intro h
    have hkept := h.nothing (by decide)
    have hport : (443 : Int) = 8085 := congrArg (fun s => s.destination.port) hkept
    exact absurd hport (by decide)
  · intro h
    obtain ⟨name, -, hdestination⟩ := h.all (some (ascii "est.example")) 443 none rfl (by decide)
    have hsegment : some (ascii "tenant") = none := congrArg Destination.pathSegment hdestination
    cases hsegment

end Word

end LibEst.Client.Configuration
