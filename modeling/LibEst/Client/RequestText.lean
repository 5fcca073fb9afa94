import LibEst.Client.Answer

/-! The text of a request from its first part to its last: what is put behind a header
keeps the header as its front, and an exchange sends nothing but such a text. -/
namespace LibEst.Client.RequestText

open LibEst.Basic LibEst.OpenSsl LibEst.Lib.ByteString LibEst.Lib.Trace
open LibEst.Client.Context LibEst.Client.AuthHeader LibEst.Client.Http LibEst.Client.Request
open LibEst.Client.Answer

variable {env : ClientEnv} {x : Exchange} {client : ClientCtx} {op : EstOperation}

section Extending

theorem addAuthHdr_extends {hdr uri out : Bytes} {authEnv : AuthEnv}
    (h : estClientAddAuthHdr authEnv client hdr uri = some out) : out = [] ∨ hdr <+: out := by
  unfold estClientAddAuthHdr at h
  split at h
  · cases h
    exact Or.inr (List.prefix_refl _)
  · cases h
    exact Or.inr (List.prefix_append _ _)
  · cases h
    exact Or.inl rfl
  · cases h

theorem limitHeader_cases (hdr : Bytes) : limitHeader hdr = [] ∨ limitHeader hdr = hdr := by
  unfold limitHeader
  split
  · exact Or.inl rfl
  · exact Or.inr rfl

theorem addLineEnd_extends {text out : Bytes} (h : addLineEnd text = some out) : text <+: out := by
  unfold addLineEnd at h
  split_ifs at h <;> cases h <;> exact List.prefix_append _ _

theorem buildRequest_extends {hdr body request : Bytes} (h : buildRequest hdr body = some request) :
    hdr <+: request := by
  unfold buildRequest at h
  simp only [Option.bind_eq_bind, Option.bind_eq_some_iff] at h
  obtain ⟨text, htext, hrest⟩ := h
  split_ifs at hrest
  exact ((addLineEnd_extends htext).trans (List.prefix_append _ _)).trans (addLineEnd_extends hrest)

end Extending

section Sending

/-- An exchange sends at most the text that its header and its body make. -/
theorem exchange_sends {hdr body : Bytes} {auth : AuthLine} {csr : Option X509Req}
    {privKey : Option EvpPkey} {e : Event}
    (he : e ∈ (exchange x client op auth csr privKey hdr body).events) :
    hdr ≠ [] ∧ ∃ t, e = .sent t ∧ t.ctx = { client with lastHttpStatus := 0 } ∧
      buildRequest hdr body = some t.request := by
  unfold exchange at he
  split at he
  · cases he
  · rename_i hne
    refine ⟨hne, ?_⟩
    cases hrequest : buildRequest hdr body with
    | none =>
      rw [hrequest] at he
      cases he
    | some request =>
      rw [hrequest, bind_of_value_some (ofOption_value _), emit_bind] at he
      have hanswer : (if x.wrote then ofOption (estIoGetResponseInternal
          { client with lastHttpStatus := 0 } op x.reads)
          else pure ({ client with lastHttpStatus := 0 }, Except.error EstError.sslWrite) :
          Traced Event (ClientCtx × Except EstError Buffers)).events = [] := by
        split <;> rfl
      simp only [ofOption_events, List.nil_append, hanswer, List.mem_singleton] at he
      exact ⟨_, he, rfl, rfl⟩

end Sending

end LibEst.Client.RequestText
