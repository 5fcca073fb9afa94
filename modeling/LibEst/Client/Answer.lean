import LibEst.Client.Request

/-! What an answer does to the context of the client: which fields it can change,
and that only a challenge changes those that the next Authorization header is made
of. -/
namespace LibEst.Client.Answer

open LibEst.Basic LibEst.OpenSsl LibEst.Lib.ByteString LibEst.Lib.Loop LibEst.Lib.Trace
open LibEst.Server.AuthHeader
open LibEst.Client.Context LibEst.Client.AuthHeader LibEst.Client.Http LibEst.Client.Request

/-- The context without what a challenge leaves in it. -/
def unchallenged (ctx : ClientCtx) : ClientCtx :=
  { ctx with
    authMode := .none
    realm := []
    sNonce := [] }

/-- The context without anything that an answer can change. -/
def settled (ctx : ClientCtx) : ClientCtx :=
  { unchallenged ctx with
    lastHttpStatus := 0
    retryAfterDelay := 0 }

/-- What does not look at those fields is the same for both contexts. -/
theorem eq_of_settled {α : Type} {a b : ClientCtx} (f : ClientCtx → α)
    (hf : ∀ ctx, f (settled ctx) = f ctx) (h : settled a = settled b) : f a = f b := by
  rw [← hf a, h, hf b]

section Tokens

/-- What one token of a challenge asks for. -/
inductive TokenAction where
  | done
  | invalid
  | realm (value rest : Bytes)
  | nonce (value rest : Bytes)
  | pass (rest : Bytes)

def valueAction (rest : Bytes) (store : Bytes → Bytes → TokenAction) : TokenAction :=
  match htNextField rest with
  | none => .invalid
  | some (value, last) => store value last

def tokenAction (text : Bytes) : TokenAction :=
  match htNextField text with
  | none => .done
  | some (token, rest) =>
      if strcaseEq token "realm" then
        valueAction rest fun value last => .realm (value.take maxRealm) last
      else if strcaseEq token "nonce" then
        valueAction rest fun value last => .nonce (value.take maxNonce) last
      else if strcaseEq token "qop" then valueAction rest fun _ last => .pass last
      else if strcaseEq token "algorithm" then
        match htNextField rest with
        | none => .pass []
        | some (value, last) => if strcaseEq value "md5" then .pass last else .invalid
      else if strcaseEq token "error" then valueAction rest fun _ last => .pass last
      else if strcaseEq token "error_description" then valueAction rest fun _ last => .pass last
      else .pass rest

def TokenAction.turn (ctx : ClientCtx) : TokenAction → Turn TokenState TokenResult
  | .done => .stop (true, ctx)
  | .invalid => .stop (false, { ctx with sNonce := [] })
  | .realm value rest => .more ({ ctx with realm := value }, rest)
  | .nonce value rest => .more ({ ctx with sNonce := value }, rest)
  | .pass rest => .more (ctx, rest)

theorem withValue_eq {ctx : ClientCtx} {store : Bytes → ClientCtx}
    {action : Bytes → Bytes → TokenAction}
    (h : ∀ value last, (action value last).turn ctx = .more (store value, last)) (rest : Bytes) :
    withValue ctx rest store = (valueAction rest action).turn ctx := by
  unfold withValue valueAction
  cases htNextField rest with
  | none => rfl
  | some field => exact (h field.1 field.2).symm

/-- Which token comes next does not depend on the context. -/
theorem tokenTurn_eq (ctx : ClientCtx) (text : Bytes) :
    tokenTurn (ctx, text) = (tokenAction text).turn ctx := by
  unfold tokenTurn tokenAction
  dsimp only
  cases htNextField text with
  | none => rfl
  | some field =>
    dsimp only
    split_ifs
    · exact withValue_eq (fun _ _ => rfl) _
    · exact withValue_eq (fun _ _ => rfl) _
    · exact withValue_eq (fun _ _ => rfl) _
    · cases htNextField field.2 with
      | none => rfl
      | some value =>
        dsimp only
        split_ifs <;> rfl
    · exact withValue_eq (fun _ _ => rfl) _
    · exact withValue_eq (fun _ _ => rfl) _
    · rfl

end Tokens

section Challenge

/-- The tokens change the realm and the nonce, and nothing else. -/
theorem parseAuthTokens_settled (ctx : ClientCtx) (value : Bytes) :
    settled (estIoParseAuthTokens ctx value).2 = settled ctx := by
  have hmore (s next : TokenState) (hinv : settled s.1 = settled ctx)
      (hnext : tokenTurn s = .more next) : settled next.1 = settled ctx := by
    rw [tokenTurn_eq s.1 s.2] at hnext
    cases haction : tokenAction s.2 <;> rw [haction] at hnext <;> cases hnext <;> exact hinv
  have hstop (s : TokenState) (result : TokenResult) (hinv : settled s.1 = settled ctx)
      (hresult : tokenTurn s = .stop result) : settled result.2 = settled ctx := by
    rw [tokenTurn_eq s.1 s.2] at hresult
    cases haction : tokenAction s.2 <;> rw [haction] at hresult <;> cases hresult <;> exact hinv
  unfold estIoParseAuthTokens
  split
  · rfl
  · exact loopTotal_rule tokenTurn_shrinks hmore hstop rfl

theorem parseHttpAuthRequest_settled (ctx : ClientCtx) (hdrs : List HttpHeader) :
    settled (estIoParseHttpAuthRequest ctx hdrs) = settled ctx := by
  unfold estIoParseHttpAuthRequest
  split
  · rfl
  · split
    · rfl
    · exact parseAuthTokens_settled ctx _

/-- Two contexts have the same realm and the same nonce, except that the second has
none where the first may have an old one. -/
structure Refreshed (oldRealm oldNonce : Prop) (a b : ClientCtx) : Prop where
  realm : a.realm = b.realm ∨ oldRealm ∧ b.realm = []
  sNonce : a.sNonce = b.sNonce ∨ oldNonce ∧ b.sNonce = []

variable {oldRealm oldNonce : Prop} {a b : ClientCtx}

theorem tokenTurn_both {text : Bytes} (h : Refreshed oldRealm oldNonce a b) :
    Turn.Both (fun s t => Refreshed oldRealm oldNonce s.1 t.1 ∧ s.2 = t.2)
      (fun s t => s.1 = t.1 ∧ Refreshed oldRealm oldNonce s.2 t.2)
      (tokenTurn (a, text)) (tokenTurn (b, text)) := by
  rw [tokenTurn_eq, tokenTurn_eq]
  cases tokenAction text with
  | done => exact .stop ⟨rfl, h⟩
  | invalid => exact .stop ⟨rfl, h.realm, Or.inl rfl⟩
  | realm value rest => exact .more ⟨⟨Or.inl rfl, h.sNonce⟩, rfl⟩
  | nonce value rest => exact .more ⟨⟨h.realm, Or.inl rfl⟩, rfl⟩
  | pass rest => exact .more ⟨h, rfl⟩

theorem parseAuthTokens_both (h : Refreshed oldRealm oldNonce a b) (value : Bytes) :
    (estIoParseAuthTokens a value).1 = (estIoParseAuthTokens b value).1 ∧
      Refreshed oldRealm oldNonce (estIoParseAuthTokens a value).2
        (estIoParseAuthTokens b value).2 := by
  let states (s t : TokenState) : Prop := Refreshed oldRealm oldNonce s.1 t.1 ∧ s.2 = t.2
  let results (s t : TokenResult) : Prop := s.1 = t.1 ∧ Refreshed oldRealm oldNonce s.2 t.2
  have hsizes (s t : TokenState) (hst : states s t) : s.2.length = t.2.length := by
    rw [hst.2]
  have hturns (s t : TokenState) (hst : states s t) :
      Turn.Both states results (tokenTurn s) (tokenTurn t) := by
    obtain ⟨state, text⟩ := s
    obtain ⟨other, rest⟩ := t
    obtain ⟨hstate, rfl⟩ := hst
    exact tokenTurn_both hstate
  unfold estIoParseAuthTokens
  split
  · exact ⟨rfl, h⟩
  · rename_i rest _
    have hstart : states (a, rest) (b, rest) := ⟨h, rfl⟩
    exact loopTotal_both tokenTurn_shrinks hsizes hturns hstart

/-- What a challenge says does not depend on the context it is read into. -/
theorem parseHttpAuthRequest_both (h : Refreshed oldRealm oldNonce a b) (hdrs : List HttpHeader) :
    (estIoParseHttpAuthRequest a hdrs).authMode = (estIoParseHttpAuthRequest b hdrs).authMode ∧
      Refreshed oldRealm oldNonce (estIoParseHttpAuthRequest a hdrs)
        (estIoParseHttpAuthRequest b hdrs) := by
  unfold estIoParseHttpAuthRequest
  split
  · exact ⟨rfl, h.realm, h.sNonce⟩
  · split
    · exact ⟨rfl, h.realm, h.sNonce⟩
    · rename_i hdr _ _ _ _
      obtain ⟨hvalid, hparsed⟩ := parseAuthTokens_both h hdr.value
      dsimp only
      rw [hvalid]
      exact ⟨rfl, hparsed.realm, hparsed.sNonce⟩

/-- An Authorization header is made of the mode, of the credentials, and for a
digest of the realm and the nonce. -/
theorem authLine_congr {authEnv : AuthEnv} {uri : Bytes} (hsettled : settled a = settled b)
    (hmode : a.authMode = b.authMode)
    (hdigest : a.authMode = .digest → a.realm = b.realm ∧ a.sNonce = b.sNonce) :
    authLine authEnv a uri = authLine authEnv b uri := by
  unfold authLine
  rw [← hmode]
  cases h : a.authMode with
  | none => rfl
  | fail => rfl
  | basic =>
    dsimp only
    rw [eq_of_settled basicValue (fun _ => rfl) hsettled]
  | token =>
    dsimp only
    rw [eq_of_settled bearerValue (fun _ => rfl) hsettled]
  | digest =>
    have hvalue := eq_of_settled
      (fun (ctx : ClientCtx) (realm nonce : Bytes) =>
        digestValue authEnv { ctx with realm := realm, sNonce := nonce } uri) (fun _ => rfl) hsettled
    have hboth := congrFun (congrFun hvalue a.realm) a.sNonce
    dsimp only at hboth ⊢
    rw [hboth, (hdigest h).1, (hdigest h).2]

theorem authLine_absent {authEnv : AuthEnv} {ctx : ClientCtx} (uri : Bytes)
    (h : hasAuthenticated ctx.authMode = false) : authLine authEnv ctx uri = .absent := by
  unfold authLine
  cases hmode : ctx.authMode with
  | none => rfl
  | fail => rfl
  | basic => simp [hmode, hasAuthenticated] at h
  | digest => simp [hmode, hasAuthenticated] at h
  | token => simp [hmode, hasAuthenticated] at h

end Challenge

section Answers

/-- How an answer ends: a challenge, another error, or the data of a success. -/
inductive Answered (ctx : ClientCtx) (status : Int) (hdrs : List HttpHeader) :
    ClientCtx → Except EstError Buffers → Prop
  | again (hstatus : status = 401) (hmode : hasAuthenticated ctx.authMode = true) :
      Answered ctx status hdrs { ctx with authMode := .fail, lastHttpStatus := status }
        (.error .authFail)
  | challenge (hstatus : status = 401) (hmode : hasAuthenticated ctx.authMode = false) :
      Answered ctx status hdrs
        (estIoParseHttpAuthRequest { ctx with lastHttpStatus := status } hdrs) (.error .authFail)
  | error (last : Int) (delay : Nat) (rv : EstError) (hnone : rv ≠ .none) (hrv : rv ≠ .authFail) :
      Answered ctx status hdrs { ctx with lastHttpStatus := last, retryAfterDelay := delay }
        (.error rv)
  | success (hstatus : status = 200) (buffers : Buffers) :
      Answered ctx status hdrs { ctx with lastHttpStatus := status } (.ok buffers)

variable {ctx ctx' : ClientCtx} {status : Int} {hdrs : List HttpHeader}
  {r : Except EstError Buffers}

theorem statusError_answered (ctx : ClientCtx) (status : Int) (hdrs : List HttpHeader) :
    Answered ctx status hdrs (statusError { ctx with lastHttpStatus := status } status hdrs).2
      (.error (statusError { ctx with lastHttpStatus := status } status hdrs).1) := by
  have herror (rv : EstError) (hnone : rv ≠ .none) (hrv : rv ≠ .authFail) :
      Answered ctx status hdrs { ctx with lastHttpStatus := status } (.error rv) :=
    .error status ctx.retryAfterDelay rv hnone hrv
  unfold statusError
  split_ifs with h204 h404 h202 h400 h401 hmode
  · exact herror .httpNoContent nofun nofun
  · exact herror .httpNotFound nofun nofun
  · unfold estIoParseHttpRetryAfterResp
    dsimp only
    split
    · exact .error status 0 .invalidRetryValue nofun nofun
    · rename_i delay _
      exact .error status delay .caEnrollRetry nofun nofun
  · exact herror .httpBadReq nofun nofun
  · exact .again h401 hmode
  · exact .challenge h401 (by simpa using hmode)
  · exact herror .httpLocked nofun nofun
  · exact herror .unknown nofun nofun
  · exact herror .httpUnsupported nofun nofun

theorem keygenBuffers_error {boundary : Option Bytes} {payload behind : Bytes} {rv : EstError}
    (h : keygenBuffers boundary payload behind = some (.error rv)) :
    rv ≠ .none ∧ rv ≠ .authFail := by
  unfold keygenBuffers at h
  split at h
  · cases h
  · rw [Option.map_eq_some_iff] at h
    obtain ⟨memory, -, h⟩ := h
    split at h
    · rename_i error hparse
      cases h
      unfold parseRemainingMultipartPayload at hparse
      dsimp only at hparse
      split at hparse
      · cases hparse
      · cases hparse
        split_ifs <;> exact ⟨nofun, nofun⟩
    · split_ifs at h
      cases h
      exact ⟨nofun, nofun⟩

theorem checkedPayload_error {hdrs : List HttpHeader} {op : EstOperation} {payload : Bytes}
    {rv : EstError} (h : checkedPayload hdrs op payload = .error rv) : rv = .httpUnsupported := by
  unfold checkedPayload at h
  split at h
  · cases h
    rfl
  · split_ifs at h
    cases h
    rfl

theorem parseResponse_answered {op : EstOperation} {raw : Bytes}
    (h : parseResponse ctx op raw = some (ctx', r)) :
    Answered ctx (estIoParseResponseStatusCode raw) (answerHeaders op raw) ctx' r := by
  have hstatus := statusError_answered ctx (estIoParseResponseStatusCode raw) (answerHeaders op raw)
  unfold parseResponse at h
  dsimp only at h
  split at h
  · rename_i hop
    unfold answerHeaders at hstatus ⊢
    rw [if_pos hop] at hstatus ⊢
    split at h
    · cases h
      exact .error _ ctx.retryAfterDelay .multipartParse nofun nofun
    · rename_i hdrs boundary payload hparse
      rw [hparse] at hstatus ⊢
      split at h
      · rename_i hok
        rw [Option.map_eq_some_iff] at h
        obtain ⟨result, hbuffers, h⟩ := h
        cases h
        cases r with
        | ok buffers => exact .success hok buffers
        | error rv =>
          obtain ⟨hnone, hrv⟩ := keygenBuffers_error hbuffers
          exact .error _ ctx.retryAfterDelay rv hnone hrv
      · cases h
        exact hstatus
  · rename_i hop
    unfold answerHeaders at hstatus ⊢
    rw [if_neg hop] at hstatus ⊢
    split at h
    · rename_i hok
      split at h
      · cases h
        exact .success hok _
      · cases h
        cases hpayload : checkedPayload (parseHttpHeaders (cString raw)).1 op
            ((parseHttpHeaders (cString raw)).2 ++ raw.drop (cString raw).length) with
        | ok buffers => exact .success hok _
        | error rv =>
          rw [checkedPayload_error hpayload]
          exact .error _ ctx.retryAfterDelay .httpUnsupported nofun nofun
    · cases h
      exact hstatus

end Answers

section Requests

theorem readRaw_error {reads : List SslRead} {raw : Bytes} {rv : EstError}
    (h : estIoReadRaw raw reads = .error rv) : rv ≠ .none ∧ rv ≠ .authFail := by
  fun_induction estIoReadRaw raw reads with
  | case1 => cases h
  | case2 =>
    cases h
    exact ⟨nofun, nofun⟩
  | case3 => cases h
  | case4 raw c chunk rest room hroom ih => exact ih h
  | case5 =>
    cases h
    exact ⟨nofun, nofun⟩
  | case6 => cases h

/-- What a request gets for an answer. -/
theorem sent_answered {t : Sent} (h : t.answer = some (ctx', r)) :
    Answered t.ctx t.status t.headers ctx' r := by
  have herror (rv : EstError) (hnone : rv ≠ .none) (hrv : rv ≠ .authFail) :
      Answered t.ctx t.status t.headers t.ctx (.error rv) :=
    .error t.ctx.lastHttpStatus t.ctx.retryAfterDelay rv hnone hrv
  unfold Sent.answer at h
  split at h
  · unfold estIoGetResponseInternal at h
    split at h
    · rename_i rv hread
      cases h
      obtain ⟨hnone, hrv⟩ := readRaw_error hread
      exact herror rv hnone hrv
    · cases h
      exact herror .httpNotFound nofun nofun
    · rename_i c raw hread
      have hraw : t.raw = c :: raw := by
        unfold Sent.raw Exchange.raw
        rw [hread]
      unfold Sent.status Sent.headers
      rw [hraw]
      exact parseResponse_answered h
  · cases h
    exact herror .sslWrite nofun nofun

/-- Only what answers may change is changed. -/
theorem Answered.settled_eq (h : Answered ctx status hdrs ctx' r) : settled ctx' = settled ctx := by
  cases h with
  | again => rfl
  | challenge => exact parseHttpAuthRequest_settled _ hdrs
  | error => rfl
  | success => rfl

/-- Without a challenge the next header is made of the same things as this one. -/
theorem Answered.kept (h : Answered ctx status hdrs ctx' r) (hr : r ≠ .error .authFail) :
    ctx'.authMode = ctx.authMode ∧ ctx'.realm = ctx.realm ∧ ctx'.sNonce = ctx.sNonce := by
  cases h with
  | again => exact absurd rfl hr
  | challenge => exact absurd rfl hr
  | error => exact ⟨rfl, rfl, rfl⟩
  | success => exact ⟨rfl, rfl, rfl⟩

/-- A mode for another attempt comes from a challenge, and only where there was
none before. -/
theorem Answered.challenged (h : Answered ctx status hdrs ctx' (.error .authFail))
    (hmode : hasAuthenticated ctx'.authMode = true) :
    hasAuthenticated ctx.authMode = false ∧ status = 401 ∧
      ctx' = estIoParseHttpAuthRequest { ctx with lastHttpStatus := status } hdrs := by
  cases h with
  | again => cases hmode
  | challenge hstatus hbefore => exact ⟨hbefore, hstatus, rfl⟩
  | error _ _ _ _ hrv => exact absurd rfl hrv

theorem Answered.ok_status {buffers : Buffers} (h : Answered ctx status hdrs ctx' (.ok buffers)) :
    status = 200 := by
  cases h with
  | success hstatus => exact hstatus

theorem Answered.error_ne_none {rv : EstError} (h : Answered ctx status hdrs ctx' (.error rv)) :
    rv ≠ .none := by
  cases h with
  | again => nofun
  | challenge => nofun
  | error _ _ _ hnone => exact hnone

/-- What a successful answer delivers does not rest on the context. -/
theorem parseResponse_ok {op : EstOperation} {a a' : ClientCtx} {raw : Bytes} {buffers : Buffers}
    (h : parseResponse a op raw = some (a', .ok buffers)) (b : ClientCtx) :
    ∃ b', parseResponse b op raw = some (b', .ok buffers) := by
  unfold parseResponse at h ⊢
  by_cases hop : op = .serverKeygen
  · rw [if_pos hop] at h ⊢
    cases hparse : parseAndSplitKeygenRsp (cString raw) with
    | none =>
      rw [hparse] at h
      cases h
    | some parts =>
      rw [hparse] at h
      dsimp only at h ⊢
      by_cases hstatus : estIoParseResponseStatusCode raw = 200
      · rw [if_pos hstatus] at h ⊢
        obtain ⟨result, hbuffers, hresult⟩ := Option.map_eq_some_iff.mp h
        cases hresult
        exact ⟨_, by rw [hbuffers, Option.map_some]⟩
      · rw [if_neg hstatus] at h
        cases h
  · rw [if_neg hop] at h ⊢
    dsimp only at h ⊢
    by_cases hstatus : estIoParseResponseStatusCode raw = 200
    · rw [if_pos hstatus] at h ⊢
      split_ifs at h ⊢
      · cases h
        exact ⟨_, rfl⟩
      · rw [Option.some.injEq, Prod.mk.injEq] at h
        exact ⟨_, by rw [h.2]⟩
    · rw [if_neg hstatus] at h
      cases h

theorem response_ok {op : EstOperation} {a a' : ClientCtx} {buffers : Buffers} {reads : List SslRead}
    (h : estIoGetResponseInternal a op reads = some (a', .ok buffers)) (b : ClientCtx) :
    ∃ b', estIoGetResponseInternal b op reads = some (b', .ok buffers) := by
  unfold estIoGetResponseInternal at h ⊢
  cases hread : estIoReadRaw [] reads with
  | error rv =>
    rw [hread] at h
    cases h
  | ok raw =>
    rw [hread] at h
    cases raw with
    | nil => cases h
    | cons c raw => exact parseResponse_ok h b

/-- A successful answer has been read. -/
theorem answer_ok_read {t : Sent} {ctx' : ClientCtx} {buffers : Buffers}
    (h : t.answer = some (ctx', .ok buffers)) :
    estIoGetResponseInternal t.ctx t.op t.exchange.reads = some (ctx', .ok buffers) := by
  unfold Sent.answer at h
  split at h
  · exact h
  · cases h

/-- What an exchange amounts to: nothing was sent, or one request with its answer. -/
inductive Exchanged (x : Exchange) (ctx : ClientCtx) (op : EstOperation) (auth : AuthLine)
    (csr : Option X509Req) (privKey : Option EvpPkey) :
    Traced Event (ClientCtx × Except EstError Buffers) → Prop
  | undefined : Exchanged x ctx op auth csr privKey ⟨[], none⟩
  | unbuilt : Exchanged x ctx op auth csr privKey ⟨[], some (ctx, .error .httpCannotBuildHeader)⟩
  | sent (t : Sent) (hctx : t.ctx = { ctx with lastHttpStatus := 0 }) (hop : t.op = op)
      (hauth : t.auth = auth) (hcsr : t.csr = csr) (hkey : t.privKey = privKey)
      (hexchange : t.exchange = x) : Exchanged x ctx op auth csr privKey ⟨[.sent t], t.answer⟩

theorem exchange_exchanged (x : Exchange) (ctx : ClientCtx) (op : EstOperation) (auth : AuthLine)
    (csr : Option X509Req) (privKey : Option EvpPkey) (hdr body : Bytes) :
    Exchanged x ctx op auth csr privKey (exchange x ctx op auth csr privKey hdr body) := by
  unfold exchange
  split
  · exact .unbuilt
  · cases hrequest : buildRequest hdr body with
    | none => exact .undefined
    | some request =>
      let t : Sent := ⟨{ ctx with lastHttpStatus := 0 }, op, auth, csr, privKey, request, x⟩
      have hsent : Exchanged x ctx op auth csr privKey ⟨[.sent t], t.answer⟩ :=
        .sent t rfl rfl rfl rfl rfl rfl
      rw [bind_of_value_some (ofOption_value _), emit_bind]
      convert hsent using 1
      unfold Sent.answer
      split <;> rfl

end Requests

end LibEst.Client.Answer
