import LibEst.Client.Initialized
import LibEst.Client.Voucher
import LibEst.Proxy.UpstreamUri

/-! How often a call sends: an enrollment at most twice, a voucher request at most four
times with one pause, and a proxy at most twice for one request from downstream. The
answers of the servers are arbitrary. -/
namespace LibEst.Proxy.AttemptBounds

open LibEst.Basic LibEst.OpenSsl LibEst.Lib.ByteString LibEst.Lib.Trace
open LibEst.Client.Context LibEst.Client.Request LibEst.Client.Enroll LibEst.Client.EnrollCases
open LibEst.Client.Answer LibEst.Client.ApiCases LibEst.Client.Initialized LibEst.Client.Voucher
open LibEst.Server.AuthHeader LibEst.Server.EnrollAuth LibEst.Proxy.ClientTable LibEst.Proxy.Forwarding
open LibEst.Proxy.UpstreamUri

def isSent : Event → Bool
  | .sent _ => true
  | _ => false

def isSlept : Event → Bool
  | .slept _ => true
  | _ => false

/-- How many requests are sent. -/
def sends {α : Type} (t : Traced Event α) : Nat := t.events.countP isSent

def sleeps {α : Type} (t : Traced Event α) : Nat := t.events.countP isSlept

/-- At most so many requests, and nothing else. -/
structure SendsOnly {α : Type} (n : Nat) (t : Traced Event α) : Prop where
  only : OnlySent t.events
  few : t.events.length ≤ n

section Rules

variable {α β : Type} {m n : Nat} {t : Traced Event α}

theorem SendsOnly.sends_le (h : SendsOnly n t) : sends t ≤ n :=
  Nat.le_trans List.countP_le_length h.few

theorem SendsOnly.sleeps_eq (h : SendsOnly n t) : sleeps t = 0 := by
  apply List.countP_eq_zero.mpr
  intro e he
  obtain ⟨sent, hsent⟩ := h.only e he
  rw [hsent]
  exact Bool.false_ne_true

theorem SendsOnly.mono (h : SendsOnly m t) (hle : m ≤ n) : SendsOnly n t where
  only := h.only
  few := Nat.le_trans h.few hle

/-- Where nothing is sent, any bound will do. -/
theorem sendsOnly_silent (h : t.events = []) : SendsOnly n t where
  only := by
    rw [h]
    exact onlySent_nil
  few := by
    rw [h]
    exact Nat.zero_le n

theorem sendsOnly_pure (a : α) : SendsOnly n (pure a) := sendsOnly_silent rfl

theorem sendsOnly_ofOption (value : Option α) : SendsOnly n (ofOption value) := sendsOnly_silent rfl

theorem sendsOnly_one {sent : Sent} (h : t.events = [.sent sent]) (hn : 1 ≤ n) : SendsOnly n t where
  only := by
    rw [h]
    exact onlySent_one sent
  few := by
    rw [h]
    exact hn

theorem SendsOnly.bind (h : SendsOnly m t) {f : α → Traced Event β}
    (hf : ∀ a, SendsOnly n (f a)) : SendsOnly (m + n) (t >>= f) := by
  apply bind_rule (p := fun t => SendsOnly (m + n) t)
  · intro _
    exact ⟨h.only, Nat.le_add_right_of_le h.few⟩
  · intro a _
    constructor
    · intro e he
      cases List.mem_append.mp he with
      | inl hfirst => exact h.only e hfirst
      | inr hsecond => exact (hf a).only e hsecond
    · rw [List.length_append]
      exact Nat.add_le_add h.few (hf a).few

/-- A part that sends nothing leaves the bound to the rest. -/
theorem sendsOnly_ofOption_bind {value : Option α} {f : α → Traced Event β}
    (hf : ∀ a, SendsOnly n (f a)) : SendsOnly n (ofOption value >>= f) := by
  have h := (sendsOnly_ofOption (n := 0) value).bind hf
  rwa [Nat.zero_add] at h

end Rules

section Enrolling

variable {env : ClientEnv} {net : Network} {ctx : ClientCtx} {op : EstOperation}

theorem attempts_sendsOnly {result : Traced Event (ClientCtx × Enrolled × Bool)}
    (h : Attempts env net ctx op result) : SendsOnly 2 result := by
  cases h with
  | undefined => exact sendsOnly_silent rfl
  | refused => exact sendsOnly_silent rfl
  | crashed t => exact sendsOnly_one rfl (by decide)
  | once t => exact sendsOnly_one rfl (by decide)
  | barred t => exact sendsOnly_one rfl (by decide)
  | twice t _ _ _ _ u =>
    constructor
    · intro e he
      simp only [List.mem_cons, List.not_mem_nil, or_false] at he
      exact he.elim (⟨t, ·⟩) (⟨u, ·⟩)
    · exact Nat.le_refl 2

theorem enrollCall_sendsOnly {result : Traced Event (ClientCtx × Enrolled)}
    (h : EnrollCall env net ctx op result) : SendsOnly 2 result := by
  cases h with
  | refused => exact sendsOnly_silent rfl
  | attempted reset hinit hresult =>
    have hsends := attempts_sendsOnly hresult
    exact ⟨hsends.only, hsends.few⟩

end Enrolling

section Vouchers

variable {env : PledgeEnv} {p : Pledge} {signVoucher : Bool}

theorem voucherRequest_sendsOnly (x : Exchange) (reqBuf : Bytes) :
    SendsOnly 1 (estClientBrskiSendVoucherRequest env x p signVoucher reqBuf) := by
  unfold estClientBrskiSendVoucherRequest
  apply sendsOnly_ofOption_bind
  intro hdr
  apply sendsOnly_ofOption_bind
  intro text
  split
  · exact sendsOnly_pure _
  · apply sendsOnly_ofOption_bind
    intro request
    dsimp only
    apply SendsOnly.bind (m := 1) (n := 0) (sendsOnly_one rfl (Nat.le_refl 1))
    intro _
    apply sendsOnly_ofOption_bind
    intro answer
    split
    · exact sendsOnly_pure _
    · exact sendsOnly_ofOption _

/-- After a challenge there is one more request. -/
theorem secondRequest_sendsOnly (r : Round) (nonceStr timeStr serverCert : Bytes) (rv : EstError) :
    SendsOnly 1 (secondRequest env r p signVoucher nonceStr timeStr serverCert rv) := by
  unfold secondRequest
  split
  · split
    · exact sendsOnly_pure _
    · split
      · exact sendsOnly_pure _
      · split
        · exact sendsOnly_pure _
        · apply SendsOnly.bind (m := 1) (n := 0) (voucherRequest_sendsOnly _ _)
          intro result
          exact sendsOnly_ofOption _
  · exact sendsOnly_ofOption _

theorem round_sendsOnly (r : Round) :
    SendsOnly 2 (estClientBrskiSendGetVoucher env r p signVoucher) := by
  unfold estClientBrskiSendGetVoucher
  split
  · exact sendsOnly_pure _
  · split
    · split
      · exact sendsOnly_pure _
      · apply SendsOnly.bind (m := 1) (n := 1) (voucherRequest_sendsOnly _ _)
        intro result
        exact secondRequest_sendsOnly _ _ _ _ _
    · exact sendsOnly_pure _

/-- At most four requests, and one pause of a minute at most. -/
structure VoucherBounds {α : Type} (t : Traced Event α) : Prop where
  sends_le : sends t ≤ 4
  sleeps_le : sleeps t ≤ 1
  seconds_le : ∀ seconds, .slept seconds ∈ t.events → seconds ≤ estBrskiClientRetryMax

theorem SendsOnly.voucherBounds {α : Type} {t : Traced Event α} (h : SendsOnly 4 t) :
    VoucherBounds t where
  sends_le := h.sends_le
  sleeps_le := by
    rw [h.sleeps_eq]
    exact Nat.zero_le 1
  seconds_le seconds hmem := by
    obtain ⟨sent, hsent⟩ := h.only _ hmem
    cases hsent

theorem actualRetryDelay_le (ctx : ClientCtx) : actualRetryDelay ctx ≤ estBrskiClientRetryMax := by
  unfold actualRetryDelay
  split <;> omega

/-- A pause between two parts that only send. -/
theorem voucherBounds_paused {α β : Type} {first : Traced Event α} {t : Traced Event β}
    {seconds : Nat} (hfirst : SendsOnly 2 first) (ht : SendsOnly 2 t)
    (hseconds : seconds ≤ estBrskiClientRetryMax) :
    VoucherBounds (⟨first.events ++ .slept seconds :: t.events, t.value⟩ : Traced Event β) where
  sends_le := by
    have h := hfirst.sends_le
    have h' := ht.sends_le
    unfold sends at h h' ⊢
    rw [List.countP_append, List.countP_cons_of_neg Bool.false_ne_true]
    exact Nat.add_le_add h h'
  sleeps_le := by
    have h := hfirst.sleeps_eq
    have h' := ht.sleeps_eq
    unfold sleeps at h h' ⊢
    rw [List.countP_append, List.countP_cons_of_pos rfl, h, h']
  seconds_le other hmem := by
    cases List.mem_append.mp hmem with
    | inl hbefore =>
      obtain ⟨sent, hsent⟩ := hfirst.only _ hbefore
      cases hsent
    | inr hbehind =>
      cases List.mem_cons.mp hbehind with
      | inl hpause =>
        cases hpause
        exact hseconds
      | inr hafter =>
        obtain ⟨sent, hsent⟩ := ht.only _ hafter
        cases hsent

theorem voucherRounds_bounds (first second : Round) :
    VoucherBounds (voucherRounds env first second p signVoucher) := by
  have hfirst := @round_sendsOnly env p signVoucher first
  unfold voucherRounds
  cases hvalue : (estClientBrskiSendGetVoucher env first p signVoucher).value with
  | none =>
    rw [bind_of_value_none hvalue]
    exact SendsOnly.voucherBounds ⟨hfirst.only, Nat.le_trans hfirst.few (by decide)⟩
  | some result =>
    obtain ⟨p', got⟩ := result
    rw [bind_of_value_some hvalue]
    dsimp only
    by_cases hretry : got.rv = .caEnrollRetry
    · have hsecond := @round_sendsOnly env p' signVoucher second
      rw [if_pos hretry, emit_bind]
      apply voucherBounds_paused hfirst _ (actualRetryDelay_le p'.client)
      apply SendsOnly.bind (m := 2) (n := 0) hsecond
      intro result
      exact sendsOnly_pure _
    · rw [if_neg hretry, pure_events, pure_value, List.append_nil]
      exact SendsOnly.voucherBounds ⟨hfirst.only, Nat.le_trans hfirst.few (by decide)⟩

theorem getVoucher_bounds (first second : Round) (hasCacertLen : Bool) :
    VoucherBounds (estClientBrskiGetVoucher env first second p hasCacertLen signVoucher) := by
  have hquiet (result : Pledge × Got) :
      VoucherBounds (pure result : Traced Event (Pledge × Got)) :=
    SendsOnly.voucherBounds (sendsOnly_pure result)
  unfold estClientBrskiGetVoucher
  split
  · exact hquiet _
  · split
    · exact hquiet _
    · split
      · exact hquiet _
      · split
        · exact hquiet _
        · split
          · exact hquiet _
          · split
            · exact hquiet _
            · exact voucherRounds_bounds first second

end Vouchers

section Forwarding

variable {P : Platform} {env : ClientEnv} {client : ClientCtx} {op : EstOperation}

theorem exchange_sendsOnly (x : Exchange) (auth : Client.AuthHeader.AuthLine)
    (csr : Option X509Req) (privKey : Option EvpPkey) (hdr body : Bytes) :
    SendsOnly 1 (exchange x client op auth csr privKey hdr body) := by
  have hexchanged := exchange_exchanged x client op auth csr privKey hdr body
  generalize exchange x client op auth csr privKey hdr body = result at hexchanged
  cases hexchanged with
  | undefined => exact sendsOnly_silent rfl
  | unbuilt => exact sendsOnly_silent rfl
  | sent t => exact sendsOnly_one rfl (Nat.le_refl 1)

theorem proxyRequest_sendsOnly (x : Exchange) (pkcs10 : Bytes) :
    SendsOnly 1 (estProxySendRequest env x client pkcs10 op) := by
  unfold estProxySendRequest
  split
  · exact sendsOnly_pure _
  · unfold estClientSendEnrollRequest
    apply sendsOnly_ofOption_bind
    intro hdr
    apply SendsOnly.bind (m := 1) (n := 0) (exchange_sendsOnly _ _ _ _ _ _)
    intro result
    exact sendsOnly_pure _

/-- The loop sends once for each attempt. -/
theorem tryAgain_sendsOnly (mode : AuthMode) (net : Network) (pkcs10 : Bytes) (fuel i : Nat) :
    SendsOnly fuel (tryAgain env mode net pkcs10 op fuel i client) := by
  induction fuel generalizing i client with
  | zero => exact sendsOnly_silent rfl
  | succ fuel ih =>
    rw [tryAgain, Nat.add_comm]
    apply SendsOnly.bind (proxyRequest_sendsOnly _ _)
    intro result
    dsimp only
    split
    · exact ih _
    · exact sendsOnly_pure _

/-- However long the loop may go on, it ends after two attempts. -/
theorem tryAgain_sends_le (mode : AuthMode) (net : Network) (pkcs10 : Bytes) (fuel i : Nat) :
    SendsOnly 2 (tryAgain env mode net pkcs10 op fuel i client) := by
  cases Nat.lt_or_ge fuel 2 with
  | inl hfew => exact (tryAgain_sendsOnly mode net pkcs10 fuel i).mono (Nat.le_of_lt hfew)
  | inr hmany =>
    obtain ⟨more, rfl⟩ := Nat.exists_eq_add_of_le' hmany
    rw [tryAgain_fuel]
    exact tryAgain_sendsOnly mode net pkcs10 2 i

theorem proxyHandle_sends_le (p : ProxyState) (thread : Thread P) (d : Downstream) :
    SendsOnly 2 (estProxyHandle P env p thread d) := by
  unfold estProxyHandle
  apply sendsOnly_ofOption_bind
  intro rc
  split
  · exact sendsOnly_pure _
  · apply sendsOnly_ofOption_bind
    intro result
    dsimp only
    split
    · exact sendsOnly_pure _
    · apply SendsOnly.bind (m := 2) (n := 0) (tryAgain_sends_le _ _ _ _ _)
      intro answered
      exact sendsOnly_pure _

end Forwarding

/-- The bounds on all calls, whatever the servers answer. The loop of the proxy is cut off
nowhere: with more fuel it does the same. -/
theorem attempts_bounded (P : Platform) (env : ClientEnv) (pledge : PledgeEnv) :
    (∀ net ctx cn newPublicKey op,
      sends (estClientEnrollInternal env net ctx cn newPublicKey op) ≤ 2) ∧
    (∀ net ctx csr privKey op, sends (estClientEnrollCsrInternal env net ctx csr privKey op) ≤ 2) ∧
    (∀ first second p hasCacertLen signVoucher,
      VoucherBounds (estClientBrskiGetVoucher pledge first second p hasCacertLen signVoucher)) ∧
    (∀ p (thread : Thread P) d, sends (estProxyHandle P env p thread d) ≤ 2) ∧
    ∀ mode net pkcs10 op fuel client, sends (tryAgain env mode net pkcs10 op fuel 0 client) ≤ 2 ∧
      tryAgain env mode net pkcs10 op (fuel + 2) 0 client =
        tryAgain env mode net pkcs10 op 2 0 client := by
  refine ⟨?_, ?_, ?_, ?_, ?_⟩
  · intro net ctx cn newPublicKey op
    exact (enrollCall_sendsOnly (enrollInternal_cases env net ctx cn newPublicKey op)).sends_le
  · intro net ctx csr privKey op
    exact (enrollCall_sendsOnly (enrollCsrInternal_cases env net ctx csr privKey op)).sends_le
  · intro first second p hasCacertLen signVoucher
    exact getVoucher_bounds first second hasCacertLen
  · intro p thread d
    exact (proxyHandle_sends_le p thread d).sends_le
  · intro mode net pkcs10 op fuel client
    constructor
    · exact (tryAgain_sends_le mode net pkcs10 fuel 0).sends_le
    · exact tryAgain_fuel mode net pkcs10 op fuel 0

end LibEst.Proxy.AttemptBounds
