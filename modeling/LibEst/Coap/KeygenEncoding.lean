import LibEst.Lib.Cbor
import LibEst.Coap.Server
import LibEst.Coap.ReferenceEnv

/-! The answer to a key generation over CoAP: what the handler leaves in the
response buffer is one CBOR array that holds the whole key and the whole
certificate, or nothing at all. -/
namespace LibEst.Coap.KeygenEncoding

open LibEst.Basic LibEst.Base64 LibEst.Lib.ByteString LibEst.Lib.Cbor LibEst.Lib.Machine
open LibEst.Coap.ReqTable LibEst.Coap.TableMap LibEst.Coap.Handlers LibEst.Coap.HandlerCases
open LibEst.Coap.Server

def keyContentFormatIdentifier : Nat := 0x011C

def certContentFormatIdentifier : Nat := 0x0119

/-- The four items of an answer. -/
def keygenItems (key cert : Bytes) : List Item :=
  [.uint keyContentFormatIdentifier, .bytes key, .uint certContentFormatIdentifier, .bytes cert]

section Encoding

theorem cborLength_eq (n count : Nat) : cborLength n count = argument count n := by
  induction count with
  | zero => rfl
  | succ count ih =>
    rw [argument, ← ih, cborLength, List.range_succ, List.reverse_append, List.map_append]
    rfl

theorem cborBytestring_eq (data : Bytes) : cborBytestring data = encode (.bytes data) := by
  unfold cborBytestring encode head info width
  dsimp only
  simp only [cborLength_eq]
  split
  · rfl
  · split
    · rfl
    · split
      · rfl
      · split <;> rfl

theorem cborKeyAndCert_eq (key cert : Bytes) :
    cborKeyAndCert key cert = encodeArray (keygenItems key cert) := by
  have harray : head 4 (keygenItems key cert).length ++ encode (.uint keyContentFormatIdentifier) =
      [0x84, 0x19, 0x01, 0x1c] := rfl
  have hcert : encode (.uint certContentFormatIdentifier) = [0x19, 0x01, 0x19] := by decide
  rw [encodeArray, keygenItems, List.flatMap_cons, List.flatMap_cons, List.flatMap_cons,
    List.flatMap_cons, List.flatMap_nil, List.append_nil, ← List.append_assoc, ← keygenItems, harray,
    hcert, ← cborBytestring_eq, ← cborBytestring_eq, cborKeyAndCert]
  simp only [List.append_assoc]

/-- Heads, key and certificate, as the source adds them up. -/
theorem keygenItems_length (key cert : Bytes) :
    (encodeArray (keygenItems key cert)).length =
      4 + (cborBytestring key).length + 4 + (width cert.length + cert.length) := by
  rw [← cborKeyAndCert_eq, cborKeyAndCert, cborBytestring_eq cert, encode, head]
  simp only [List.length_append, List.length_cons, List.length_nil, argument_length]
  omega

theorem keygenItems_fit {key cert : Bytes}
    (h : (encodeArray (keygenItems key cert)).length ≤ coapReqNodeBufLenMax) :
    ∀ item ∈ keygenItems key cert, item.Fits := by
  have hmax : coapReqNodeBufLenMax = 16384 := rfl
  have hlength := keygenItems_length key cert
  have hkey : key.length ≤ (cborBytestring key).length := by
    rw [cborBytestring_eq, encode, List.length_append]
    exact Nat.le_add_left _ _
  intro item hitem
  simp only [keygenItems, List.mem_cons, List.not_mem_nil, or_false] at hitem
  rcases hitem with rfl | rfl | rfl | rfl
  · show keyContentFormatIdentifier < 2 ^ 64
    decide
  · show key.length < 2 ^ 64
    omega
  · show certContentFormatIdentifier < 2 ^ 64
    decide
  · show cert.length < 2 ^ 64
    omega

end Encoding

/-- What a base64 text stands for, with room for all of it. -/
def decodedText (E : Env) (text : Bytes) : Bytes := estBase64Decode E.bioRead text text.length

section Response

variable {E : Env} {decoded : Bool → Bytes → Bytes}

/-- No clamp cuts a text short: it is decoded as a whole or not at all. -/
theorem decodeText_eq_some_iff (hread : ReadsUpTo E.bioRead decoded) {text data : Bytes}
    {room : Nat} :
    decodeText E text room = some data ↔
      data = decodedText E text ∧ data ≠ [] ∧ data.length ≤ min text.length room := by
  have hdecode : estBase64Decode E.bioRead text (min text.length room) =
      if (decodedText E text).length ≤ min text.length room then decodedText E text else [] :=
    estBase64Decode_eq_of_readsUpTo hread text (min text.length room)
  simp only [decodeText, hdecode]
  by_cases hfits : (decodedText E text).length ≤ min text.length room
  · simp only [if_pos hfits]
    by_cases hempty : decodedText E text = []
    · rw [if_pos hempty, hempty]
      constructor
      · intro h
        cases h
      · rintro ⟨hnil, hne, -⟩
        exact absurd hnil hne
    · rw [if_neg hempty, Option.some.injEq]
      constructor
      · rintro rfl
        exact ⟨rfl, hempty, hfits⟩
      · rintro ⟨rfl, -⟩
        rfl
  · simp only [if_neg hfits, if_true]
    constructor
    · intro h
      cases h
    · rintro ⟨rfl, -, hshort⟩
      exact absurd hshort hfits

theorem decodedText_length_le (hread : ReadsUpTo E.bioRead decoded) (text : Bytes) :
    (decodedText E text).length ≤ text.length := by
  have hwhole := estBase64Decode_eq_of_readsUpTo hread text text.length
  unfold decodedText
  split at hwhole
  · assumption
  · rw [hwhole]
    exact Nat.zero_le _

/-- When an answer has a CBOR form, and which. -/
theorem keygenResponse_eq_some_iff (hread : ReadsUpTo E.bioRead decoded) {answer : Answer}
    {data : Bytes} :
    keygenResponse E answer = some data ↔
      ∃ cert, answer.content = some cert ∧ decodedText E answer.key ≠ [] ∧
        decodedText E cert ≠ [] ∧
        data = encodeArray (keygenItems (decodedText E answer.key) (decodedText E cert)) ∧
        data.length ≤ coapReqNodeBufLenMax := by
  have hmax : coapReqNodeBufLenMax = 16384 := rfl
  unfold keygenResponse
  constructor
  · intro h
    simp only [Option.bind_eq_bind, Option.bind_eq_some_iff] at h
    obtain ⟨cert, hcert, keyDer, hkey, certDer, hcertDer, h⟩ := h
    obtain ⟨rfl, hkeyNe, -⟩ := (decodeText_eq_some_iff hread).mp hkey
    obtain ⟨rfl, hcertNe, -⟩ := (decodeText_eq_some_iff hread).mp hcertDer
    split at h
    · cases h
    · rename_i hfits
      cases h
      rw [cborKeyAndCert_eq] at hfits ⊢
      exact ⟨cert, hcert, hkeyNe, hcertNe, rfl, not_lt.mp hfits⟩
  · rintro ⟨cert, hcert, hkeyNe, hcertNe, rfl, hfits⟩
    have hlength := keygenItems_length (decodedText E answer.key) (decodedText E cert)
    have hkeyLength : (cborBytestring (decodedText E answer.key)).length =
        1 + width (decodedText E answer.key).length + (decodedText E answer.key).length := by
      rw [cborBytestring_eq, encode, head]
      simp only [List.length_append, List.length_cons, argument_length]
      omega
    have hkeyText := decodedText_length_le hread answer.key
    have hcertText := decodedText_length_le hread cert
    have hkey : decodeText E answer.key (coapReqNodeBufLenMax - 5) =
        some (decodedText E answer.key) := by
      apply (decodeText_eq_some_iff hread).mpr
      exact ⟨rfl, hkeyNe, by omega⟩
    have hcertDer : decodeText E cert
        (coapReqNodeBufLenMax - (4 + (cborBytestring (decodedText E answer.key)).length + 4)) =
          some (decodedText E cert) := by
      apply (decodeText_eq_some_iff hread).mpr
      exact ⟨rfl, hcertNe, by omega⟩
    simp only [Option.bind_eq_bind, hcert, Option.bind_some, hkey, hcertDer]
    rw [cborKeyAndCert_eq, if_neg (not_lt.mpr hfits)]

end Response

section Nodes

variable {E : Env} {mode : EstMode} {key : Bytes} {state next : Option CoapReqNode}
  {request : Request} {node start after : CoapReqNode} {out : Outcome}

/-- Nothing about the response of a node differs. -/
structure SameResponse (a b : CoapReqNode) : Prop where
  buf : b.respBuf = a.respBuf
  len : b.respBufLen = a.respBufLen
  kind : b.curReq = a.curReq

theorem sameResponse_of_sameButUpload (h : SameButUpload start after) : SameResponse start after := by
  rw [h]
  exact ⟨rfl, rfl, rfl⟩

/-- The response is untouched, or it is the one that the answer of the core has. -/
theorem uploadBody_response {kind : UploadKind}
    (h : uploadBody E mode kind request node = some (after, out)) :
    SameResponse (restartUpload kind request.pdu node) after ∨
      ∃ data mid, kind.response request.answer = some data ∧ after = storeResponse mid data ∧
        SameResponse (restartUpload kind request.pdu node) mid := by
  obtain ⟨start, rfl, hcases⟩ := uploadBody_cases h
  rcases hcases with ⟨-, rfl, -⟩ | ⟨-, rfl, -⟩ | ⟨-, -, hsame, -⟩ |
    ⟨-, -, mid, notices, hsame, -, -, hfinish⟩
  · exact Or.inl ⟨rfl, rfl, rfl⟩
  · exact Or.inl ⟨rfl, rfl, rfl⟩
  · exact Or.inl (sameResponse_of_sameButUpload hsame)
  · have hmid := sameResponse_of_sameButUpload hsame
    rcases finishUpload_cases hfinish with
      ⟨rfl, -⟩ | ⟨-, call, -, -, -, ⟨rfl, -⟩ | ⟨data, hdata, hstored, -⟩⟩
    · exact Or.inl hmid
    · exact Or.inl hmid
    · exact Or.inr ⟨data, mid, hdata, hstored, hmid⟩

/-- The array of an answer starts with a byte that is not zero. -/
theorem firstByte_keygenResponse {answer : Answer} {data : Bytes} (buf : Bytes)
    (h : keygenResponse E answer = some data) : firstByte (writeAt buf 0 data) ≠ 0 := by
  simp only [keygenResponse, Option.bind_eq_bind, Option.bind_eq_some_iff] at h
  obtain ⟨cert, -, keyDer, -, certDer, -, h⟩ := h
  split at h
  · cases h
  · cases h
    rw [writeAt, readFirst_zero]
    show (0x84 : UInt8) ≠ 0
    decide

/-- A key generation that was not answered has left no length behind. -/
def Unanswered (node : CoapReqNode) : Prop :=
  node.curReq = .skg → firstByte node.respBuf = 0 → node.respBufLen = 0

theorem fresh_unanswered (key : Bytes) (req : EstCoapReq) : Unanswered (fresh key req) := by
  intro _ _
  rfl

theorem body_unanswered (request : Request) (node after : CoapReqNode) (out : Outcome)
    (h : Unanswered node) (hkind : node.curReq = (handlerOf E request.resource).reqType)
    (hbody : (handlerOf E request.resource).body mode request node = some (after, out)) :
    Unanswered after := by
  intro hskg hzero
  cases hres : uploadKind E request.resource with
  | some kind =>
    rw [body_upload hres] at hbody
    have hrestart := restart_keeps fresh_unanswered kind request.pdu h
    rcases uploadBody_response hbody with hsame | ⟨data, mid, hdata, rfl, hmid⟩
    · rw [hsame.kind] at hskg
      rw [hsame.buf] at hzero
      rw [hsame.len]
      exact hrestart hskg hzero
    · have hcur : (restartUpload kind request.pdu node).curReq = kind.reqType := by
        unfold restartUpload
        split
        · rfl
        · rw [hkind, uploadKind_reqType hres]
      have hkindSkg : kind.reqType = .skg := by
        rw [← hcur, ← hmid.kind]
        exact hskg
      have hresponse : kind.response = keygenResponse E := by
        cases hresource : request.resource <;> rw [hresource] at hres <;> cases hres
        · cases hkindSkg
        · cases hkindSkg
        · rfl
      rw [hresponse] at hdata
      exact absurd hzero (firstByte_keygenResponse mid.respBuf hdata)
  | none =>
    obtain ⟨hne, kind, hdownload⟩ := body_download hres hbody
    have hcur : after.curReq = node.curReq := by
      rcases downloadBody_cases hdownload with
        ⟨-, rfl, -⟩ | ⟨-, rfl, -⟩ | ⟨-, text, data, -, -, rfl, -⟩ <;> rfl
    rw [hcur, hkind] at hskg
    exact absurd hskg hne

theorem run_unanswered {inputs : List (Event × Bool)} {outs : List (Option Outcome)}
    (hrun : run (peerStep E mode key) none inputs = some (state, outs)) :
    ∀ node ∈ state, Unanswered node := by
  have hstep : ∀ (s : Option CoapReqNode) (i : Event × Bool) next out,
      (∀ node ∈ s, Unanswered node) → True → peerStep E mode key s i = some (next, out) →
      ∀ node ∈ next, Unanswered node :=
    fun _ _ _ _ hs _ hstep => peerStep_keeps fresh_unanswered body_unanswered hs hstep
  exact run_invariant hstep (by simp) (guarded_true none inputs) hrun

end Nodes

section Answers

variable {E : Env} {mode : EstMode} {request : Request} {node after : CoapReqNode} {out : Outcome}

/-- An answer of the core is stored, or it has no form and the code is 5.00. -/
theorem finishUpload_answered {kind : UploadKind} {notices : List EndpointNotice} {call : EnrollCall}
    (h : finishUpload E mode kind request node notices = some (after, out))
    (hcall : out.call = some call) (hrc : request.answer.rc = .none) :
    (kind.response request.answer = none ∧ after = node ∧ out.response.code = 500) ∨
      ∃ data, kind.response request.answer = some data ∧ after = storeResponse node data := by
  have hcode : enrollCode request.answer.rc = none := by rw [hrc]; rfl
  unfold finishUpload at h
  rw [hcode] at h
  split at h
  · cases h
    cases hcall
  · dsimp only at h
    split at h
    · cases h
    · split at h
      · cases h
        cases hcall
      · split at h
        · cases h
          cases hcall
        · split at h
          · rename_i hnone
            cases h
            exact Or.inl ⟨hnone, rfl, rfl⟩
          · rename_i data hdata
            cases h
            exact Or.inr ⟨data, hdata, rfl⟩

/-- Where the core was called, the upload was complete and unanswered. -/
theorem uploadBody_called {kind : UploadKind} {call : EnrollCall}
    (h : uploadBody E mode kind request node = some (after, out)) (hcall : out.call = some call) :
    firstByte (restartUpload kind request.pdu node).respBuf = 0 ∧
      ∃ mid notices, SameResponse (restartUpload kind request.pdu node) mid ∧
        finishUpload E mode kind request mid notices = some (after, out) := by
  obtain ⟨start, rfl, hcases⟩ := uploadBody_cases h
  rcases hcases with ⟨-, rfl, rfl⟩ | ⟨-, rfl, -, code, notices, rfl⟩ | ⟨-, -, -, -, -, hnone, -⟩ |
    ⟨hresp, -, mid, notices, hsame, -, -, hfinish⟩
  · cases hcall
  · cases hcall
  · rw [hnone] at hcall
    cases hcall
  · exact ⟨hresp, mid, notices, sameResponse_of_sameButUpload hsame, hfinish⟩

end Answers

/-- No head of a byte string of this length is shorter than the one it is written with. -/
def ShortestHead (data : Bytes) : Prop :=
  ∀ text, readHead text = some (2, data.length, []) → (head 2 data.length).length ≤ text.length

/-- After any run of the events of a peer, a key generation that reaches the core
and gets an answer: either there is no response and the code is 5.00, or the buffer
holds the array of the decoded key and the decoded certificate and nothing else. -/
theorem keygen_response_encoded {E : Env} {decoded : Bool → Bytes → Bytes}
    (hread : ReadsUpTo E.bioRead decoded) (mode : EstMode) (key : Bytes)
    {inputs : List (Event × Bool)} {state : Option CoapReqNode} {outs : List (Option Outcome)}
    (hrun : run (peerStep E mode key) none inputs = some (state, outs)) {request : Request}
    (hskg : request.resource = .skg) (hrc : request.answer.rc = .none) {room : Bool}
    {after : CoapReqNode} {out : Outcome} {call : EnrollCall}
    (hstep : peerRequest E mode key state room request = some (some after, out))
    (hcall : out.call = some call) :
    (out.response.code = 500 ∧ after.respBufLen = 0) ∨
      ∃ cert, request.answer.content = some cert ∧ after.respBufLen ≤ coapReqNodeBufLenMax ∧
        after.respBufLen = (encodeArray
          (keygenItems (decodedText E request.answer.key) (decodedText E cert))).length ∧
        readFirst after.respBuf after.respBufLen = encodeArray
          (keygenItems (decodedText E request.answer.key) (decodedText E cert)) ∧
        readArray (readFirst after.respBuf after.respBufLen) =
          some (keygenItems (decodedText E request.answer.key) (decodedText E cert), []) ∧
        ShortestHead (decodedText E request.answer.key) ∧ ShortestHead (decodedText E cert) := by
  have hkind : uploadKind E request.resource = some (skgKind E) := by rw [hskg]; rfl
  unfold peerRequest at hstep
  dsimp only at hstep
  split at hstep
  · rename_i exit hexit
    cases hstep
    exfalso
    have hadmit : admitUpload request = some out := by
      rw [hskg] at hexit
      exact hexit
    unfold admitUpload at hadmit
    split at hadmit
    · cases hadmit
      cases hcall
    · split at hadmit
      · cases hadmit
        cases hcall
      · split at hadmit
        · cases hadmit
          cases hcall
        · cases hadmit
  · split at hstep
    · cases hstep
      cases hcall
    · rename_i node hlookup
      obtain ⟨⟨last, final⟩, hbody, heq⟩ := Option.map_eq_some_iff.mp hstep
      cases heq
      rw [body_upload hkind] at hbody
      have hnode : Unanswered node := lookup_keeps fresh_unanswered (run_unanswered hrun) node hlookup
      have hrestart := restart_keeps fresh_unanswered (skgKind E) request.pdu hnode
      obtain ⟨hresp, mid, notices, hmid, hfinish⟩ := uploadBody_called hbody hcall
      have hcur : (restartUpload (skgKind E) request.pdu node).curReq = .skg := by
        unfold restartUpload
        split
        · rfl
        · rw [(lookup_cases (reqType_ne_reset _) hlookup).1, hskg]
          rfl
      rcases finishUpload_answered hfinish hcall hrc with ⟨-, rfl, hcode⟩ | ⟨data, hdata, rfl⟩
      · refine Or.inl ⟨hcode, ?_⟩
        rw [hmid.len]
        exact hrestart hcur hresp
      · obtain ⟨cert, hcert, -, -, rfl, hfits⟩ := (keygenResponse_eq_some_iff hread).mp hdata
        have hbuffer := readFirst_writeAt mid.respBuf 0
          (encodeArray (keygenItems (decodedText E request.answer.key) (decodedText E cert)))
        rw [Nat.zero_add, readFirst_zero, List.nil_append] at hbuffer
        refine Or.inr ⟨cert, hcert, hfits, rfl, hbuffer, ?_⟩
        have harray := readArray_encodeArray (keygenItems_fit hfits) (by simp [keygenItems]) []
        rw [List.append_nil] at harray
        exact ⟨(congrArg readArray hbuffer).trans harray, fun _ => head_shortest, fun _ => head_shortest⟩

section Instances

open LibEst.Coap.ReferenceEnv

/-- A key generation in one message, answered with a key and a certificate. -/
def skgAnswered : Request where
  resource := .skg
  pdu := {
    contentFormat := [coapMediaTypePkcs10]
    accept := [coapMediaTypeMulti]
    payload := ascii "a request"
    block1 := none
    block2 := none }
  tls := true
  peerCert := true
  answer := {
    rc := .none
    content := some (ascii "Y2VydGlmaWNhdGU=")
    key := ascii "a2V5"
    caCalled := true }

theorem keygen_response_encoded_short :
    ∃ after out, peerRequest hostEnv .server [] none true skgAnswered = some (some after, out) ∧
      ((out.response.code = 500 ∧ after.respBufLen = 0) ∨
        ∃ cert, skgAnswered.answer.content = some cert ∧ after.respBufLen ≤ coapReqNodeBufLenMax ∧
          after.respBufLen = (encodeArray
            (keygenItems (decodedText hostEnv (ascii "a2V5")) (decodedText hostEnv cert))).length ∧
          readFirst after.respBuf after.respBufLen = encodeArray
            (keygenItems (decodedText hostEnv (ascii "a2V5")) (decodedText hostEnv cert)) ∧
          readArray (readFirst after.respBuf after.respBufLen) =
            some (keygenItems (decodedText hostEnv (ascii "a2V5")) (decodedText hostEnv cert), []) ∧
          ShortestHead (decodedText hostEnv (ascii "a2V5")) ∧
          ShortestHead (decodedText hostEnv cert)) := by
  have hcalled : ((peerRequest hostEnv .server [] none true skgAnswered).bind fun result =>
      result.1.bind fun _ => result.2.call) =
      some ⟨.serverKeygen, ascii "a request", base64Text true (ascii "a request")⟩ := by
    decide +kernel
  obtain ⟨⟨state, out⟩, hstep, hcalled⟩ := Option.bind_eq_some_iff.mp hcalled
  obtain ⟨after, hafter, hcall⟩ := Option.bind_eq_some_iff.mp hcalled
  cases hafter
  exact ⟨after, out, hstep, keygen_response_encoded readBase64_readsUpTo .server []
    (show run (peerStep hostEnv .server []) none [] = some (none, []) from rfl) rfl rfl hstep hcall⟩

end Instances

end LibEst.Coap.KeygenEncoding
