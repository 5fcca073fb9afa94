import LibEst.Server.Reference

/-! Proof of possession: the text that both sides of a TLS session derive from
the first Finished message, the attribute that carries it in a request, and the
check on the server. -/
namespace LibEst.Server.TlsUid

open LibEst.Basic LibEst.OpenSsl LibEst.Base64 LibEst.Lib.ByteString LibEst.Server.Context

def estTlsUidLen : Nat := 17
def evpMaxMdSize : Nat := 64
def maxFinished : Nat := 100
def tls12Version : Nat := 0x0303

/-- The Finished message that went over the wire first: the client's, or the
server's where the session is resumed. -/
def firstFinished (ssl : Ssl) (isClient : Bool) : Bytes :=
  if isClient ≠ ssl.sessionReused then ssl.finished else ssl.peerFinished

/-- The longest text, line feed included. -/
def maxUidText (ssl : Ssl) : Nat :=
  if tls12Version < ssl.version then evpMaxMdSize * (4 / 3) + 1 else estTlsUidLen

/-- The outer `none` is undefined: without a message the byte before an empty
text is read, and a message longer than the local buffer is read past its end.
The inner one is the null that a text over the limit leads to. -/
def estGetTlsUid (ssl : Ssl) (isClient : Bool) : Option (Option Bytes) :=
  let finished := firstFinished ssl isClient
  if finished = [] ∨ maxFinished < finished.length then none
  else
    let text := base64Text true finished
    if maxUidText ssl < text.length then some none
    else some (some (if text.getLast? = some newline then text.dropLast else text))

/-- What `bs->data` is for a value: undefined where the value is no pointer, a
null pointer, or memory. The data of a character string has a zero behind it. -/
def stringMemory : Asn1Type → Option (Option Bytes)
  | .string _ data beyond => some (some (data ++ 0 :: beyond))
  | .octets _ data beyond => some (some (data ++ beyond))
  | .object names => some (names.map (· ++ [0]))
  | .null => none
  | .boolean => none

/-- `memcmp_s` over the length of the text is a comparison with the front of the
memory; it fails to run on an empty text or a null pointer. -/
def uidMatches (uid : Bytes) (memory : Option Bytes) : Bool :=
  match memory with
  | none => false
  | some memory => uid ≠ [] ∧ memory.take uid.length = uid

def estTlsUidAuth (ctx : EstCtx) (ssl : Ssl) (req : X509Req) : Option EstError :=
  match getAttrByNid req nidChallengePassword with
  | none => some (if ctx.serverEnablePop then .authFailTlsuid else .none)
  | some attr =>
      match attr.values with
      | [] => none
      | value :: _ =>
          match estGetTlsUid ssl false with
          | none => none
          | some none => some .authFailTlsuid
          | some (some uid) =>
              (stringMemory value).map fun memory =>
                if uidMatches uid memory then .none else .authFailTlsuid

section Client

/-- Every challenge password goes, one after the other. -/
def estClientClearCsrPop (csr : X509Req) : X509Req :=
  { csr with attributes := csr.attributes.filter fun attr => attr.nid ≠ nidChallengePassword }

/-- `X509_REQ_add1_attr_by_NID` with an ASCII text: one value, a UTF-8 string. -/
def addChallengePassword (csr : X509Req) (uid : Bytes) : X509Req :=
  { csr with
    attributes := csr.attributes ++
      [{ nid := nidChallengePassword, values := [.string .utf8 uid []] }] }

/-- The request that the client sends for a request of the application, with the
proof where it is required. -/
def estClientEnrollPkcs10 (C : Crypto) (popRequired : Bool) (ssl : Ssl) (csr : X509Req)
    (privKey : EvpPkey) (md : Digest) : Option (Except EstError X509Req) :=
  let csr := estClientClearCsrPop csr
  let signed (csr : X509Req) : Except EstError X509Req :=
    match estX509ReqSign C csr privKey md with
    | none => .error .x509Sign
    | some csr => .ok csr
  if popRequired then
    (estGetTlsUid ssl true).map fun
      | none => .error .authFailTlsuid
      | some uid => signed (addChallengePassword csr uid)
  else some (signed csr)

/-- The request for a common name. -/
def estGeneratePkcs10 (C : Crypto) (popRequired : Bool) (ssl : Ssl) (cn : Bytes) (pkey : EvpPkey)
    (md : Digest) : Option (Except EstError X509Req) :=
  (estGetTlsUid ssl true).map fun
    | none => .error .authFailTlsuid
    | some uid =>
        let req : X509Req :=
          { subject := [{ nid := 13, data := cn }], attributes := [], pubKey := [], signature := [] }
        let req := if popRequired then addChallengePassword req uid else req
        match reqSetPubkey C req pkey with
        | none => .error .x509Pubkey
        | some req =>
            match estX509ReqSign C req pkey md with
            | none => .error .x509Sign
            | some req => .ok req

end Client

section Text

theorem lines_ne_zero (fuel : Nat) (src : Bytes) : ∀ c ∈ lines fuel src, c ≠ 0 := by
  have hnewline : newline ≠ 0 := by decide
  fun_induction lines fuel src with
  | case1 => simp
  | case2 => simp
  | case3 fuel src hne ih =>
    simp only [List.mem_append, List.mem_cons]
    rintro c (hc | rfl | hc)
    · exact (groups_printable _ c hc).1
    · exact hnewline
    · exact ih c hc

/-- The text is not empty and has no zero in it. -/
theorem estGetTlsUid_text {ssl : Ssl} {isClient : Bool} {uid : Bytes}
    (h : estGetTlsUid ssl isClient = some (some uid)) : uid ≠ [] ∧ ∀ c ∈ uid, c ≠ 0 := by
  unfold estGetTlsUid at h
  simp only at h
  split at h
  · cases h
  · rename_i hfinished
    split at h
    · cases h
    · have hsrc : firstFinished ssl isClient ≠ [] := fun hnil => hfinished (Or.inl hnil)
      have hzero : ∀ c ∈ base64Text true (firstFinished ssl isClient), c ≠ 0 :=
        lines_ne_zero _ _
      have hlength : 4 < (base64Text true (firstFinished ssl isClient)).length := by
        have hpos := List.length_pos_iff.mpr hsrc
        rw [base64Text_length]
        omega
      simp only [Option.some.injEq] at h
      subst h
      split
      · constructor
        · intro hnil
          have := congrArg List.length hnil
          rw [List.length_dropLast, List.length_nil] at this
          omega
        · intro c hc
          exact hzero c (List.dropLast_subset _ hc)
      · constructor
        · intro hnil
          rw [hnil, List.length_nil] at hlength
          omega
        · exact hzero

end Text

section Exactness

/-- One of the values is a character string with exactly these bytes. -/
def HoldsUid (attr : X509Attribute) (uid : Bytes) : Prop :=
  ∃ type beyond, Asn1Type.string type uid beyond ∈ attr.values

/-- The check returns, and with success exactly if the attribute holds the text
of this session. -/
def PopExact (ctx : EstCtx) (ssl : Ssl) (req : X509Req) (attr : X509Attribute) : Prop :=
  ∃ rc, estTlsUidAuth ctx ssl req = some rc ∧
    (rc = .none ↔ ∃ uid, estGetTlsUid ssl false = some (some uid) ∧ HoldsUid attr uid)

/-- The first value leads the comparison astray. It is no string object at all;
or none of the values is the text, but the first is longer and begins with it, or
is of another kind and its memory begins with it; or it hides a later value that
is the text. -/
inductive Misread (uid : Bytes) : Asn1Type → List Asn1Type → Prop where
  | null (rest : List Asn1Type) : Misread uid .null rest
  | boolean (rest : List Asn1Type) : Misread uid .boolean rest
  | longer (type : StringType) (data beyond : Bytes) (rest : List Asn1Type)
      (hrest : ∀ type beyond, .string type uid beyond ∉ rest) (hfront : uid <+: data)
      (hlonger : uid.length < data.length) : Misread uid (.string type data beyond) rest
  | octets (type : OctetType) (data beyond : Bytes) (rest : List Asn1Type)
      (hrest : ∀ type beyond, .string type uid beyond ∉ rest) (hfront : uid <+: data ++ beyond) :
      Misread uid (.octets type data beyond) rest
  | object (names : Bytes) (rest : List Asn1Type)
      (hrest : ∀ type beyond, .string type uid beyond ∉ rest) (hfront : uid <+: names) :
      Misread uid (.object (some names)) rest
  | hidden (first : Asn1Type) (rest : List Asn1Type) (type : StringType) (beyond : Bytes)
      (hlater : .string type uid beyond ∈ rest)
      (hfirst : ∀ memory, stringMemory first = some memory → uidMatches uid memory = false) :
      Misread uid first rest

/-- What the check gets wrong: a session without a Finished message, an attribute
without a value, or one whose first value is misread. -/
def Mishandled (ssl : Ssl) (attr : X509Attribute) : Prop :=
  estGetTlsUid ssl false = none ∨ attr.values = [] ∨
    ∃ uid first rest, estGetTlsUid ssl false = some (some uid) ∧ attr.values = first :: rest ∧
      Misread uid first rest

section Memory

variable {uid : Bytes}

theorem take_eq_iff_prefix (memory : Bytes) : memory.take uid.length = uid ↔ uid <+: memory := by
  rw [List.prefix_iff_eq_take]
  exact eq_comm

/-- A text without a zero does not reach over the zero behind a string. -/
theorem prefix_terminated (hzero : ∀ c ∈ uid, c ≠ 0) (data beyond : Bytes) :
    uid <+: data ++ 0 :: beyond ↔ uid <+: data := by
  constructor
  · rintro ⟨tail, htail⟩
    rcases List.append_eq_append_iff.mp htail with ⟨rest, hdata, -⟩ | ⟨excess, huid, hexcess⟩
    · exact ⟨rest, hdata.symm⟩
    · cases excess with
      | nil => exact ⟨[], by rw [huid]; simp⟩
      | cons c excess =>
        rw [List.cons_append, List.cons.injEq] at hexcess
        exact absurd hexcess.1.symm (hzero c (by simp [huid]))
  · intro h
    exact h.trans (List.prefix_append _ _)

theorem uidMatches_iff (hne : uid ≠ []) (memory : Bytes) :
    uidMatches uid (some memory) = true ↔ uid <+: memory := by
  simp [uidMatches, hne, take_eq_iff_prefix]

end Memory

variable {ctx : EstCtx} {ssl : Ssl} {req : X509Req} {attr : X509Attribute}

/-- The comparison with the first value settles whether any value is the text,
unless the first value is misread. -/
theorem match_first_iff {uid : Bytes} (hne : uid ≠ []) (hzero : ∀ c ∈ uid, c ≠ 0)
    {first : Asn1Type} {rest : List Asn1Type} (hread : ¬ Misread uid first rest) :
    ∃ memory, stringMemory first = some memory ∧
      (uidMatches uid memory = true ↔ ∃ type beyond, .string type uid beyond ∈ first :: rest) := by
  have hagree : ∀ memory, stringMemory first = some memory →
      (∀ type beyond, first ≠ .string type uid beyond) →
      (uidMatches uid memory = true → ∃ type beyond, .string type uid beyond ∈ rest) →
      (uidMatches uid memory = true ↔ ∃ type beyond, .string type uid beyond ∈ first :: rest) := by
    intro memory hmemory hfirst hmatch
    constructor
    · intro htrue
      obtain ⟨type, beyond, hmem⟩ := hmatch htrue
      exact ⟨type, beyond, List.mem_cons_of_mem _ hmem⟩
    · rintro ⟨type, beyond, hmem⟩
      rcases List.mem_cons.mp hmem with rfl | hmem
      · exact absurd rfl (hfirst type beyond)
      · by_contra hfalse
        refine hread (.hidden first rest type beyond hmem ?_)
        intro other hother
        rw [hmemory, Option.some.injEq] at hother
        rw [← hother]
        exact Bool.eq_false_iff.mpr hfalse
  -- a value that matches without being the text must be followed by the text
  have hlater : ((∀ type beyond, Asn1Type.string type uid beyond ∉ rest) → Misread uid first rest) →
      ∃ type beyond, Asn1Type.string type uid beyond ∈ rest := by
    intro hmisread
    by_contra hnone
    refine hread (hmisread ?_)
    intro type beyond hmem
    exact hnone ⟨type, beyond, hmem⟩
  cases first with
  | string type data beyond =>
    refine ⟨_, rfl, ?_⟩
    by_cases hdata : uid = data
    · subst hdata
      rw [uidMatches_iff hne, prefix_terminated hzero]
      exact ⟨fun _ => ⟨type, beyond, by simp⟩, fun _ => List.prefix_rfl⟩
    · refine hagree _ rfl ?_ ?_
      · intro type' beyond' heq
        cases heq
        exact hdata rfl
      · intro hmatch
        have hfront := (prefix_terminated hzero data beyond).mp ((uidMatches_iff hne _).mp hmatch)
        have hlonger : uid.length < data.length := by
          have hle := hfront.length_le
          by_contra hnot
          exact hdata (hfront.eq_of_length_le (by omega))
        exact hlater fun hrest => .longer type data beyond rest hrest hfront hlonger
  | octets type data beyond =>
    refine ⟨_, rfl, hagree _ rfl (by simp) ?_⟩
    intro hmatch
    exact hlater fun hrest => .octets type data beyond rest hrest ((uidMatches_iff hne _).mp hmatch)
  | object names =>
    refine ⟨_, rfl, hagree _ rfl (by simp) ?_⟩
    intro hmatch
    cases names with
    | none => cases hmatch
    | some names =>
      have hfront := (prefix_terminated hzero names []).mp ((uidMatches_iff hne _).mp hmatch)
      exact hlater fun hrest => .object names rest hrest hfront
  | null => exact absurd (.null rest) hread
  | boolean => exact absurd (.boolean rest) hread

/-- A misread first value makes the check crash or answer wrongly. -/
theorem Misread.wrong {uid : Bytes} (hne : uid ≠ []) (hzero : ∀ c ∈ uid, c ≠ 0)
    {first : Asn1Type} {rest : List Asn1Type} (hread : Misread uid first rest) {memory : Option Bytes}
    (hmemory : stringMemory first = some memory) :
    ¬ (uidMatches uid memory = true ↔ ∃ type beyond, .string type uid beyond ∈ first :: rest) := by
  have hwrong : (∀ type beyond, first ≠ .string type uid beyond) →
      (∀ type beyond, Asn1Type.string type uid beyond ∉ rest) → uidMatches uid memory = true →
      ¬ (uidMatches uid memory = true ↔
        ∃ type beyond, .string type uid beyond ∈ first :: rest) := by
    intro hfirst hrest hmatch hiff
    obtain ⟨type, beyond, hmem⟩ := hiff.mp hmatch
    rcases List.mem_cons.mp hmem with heq | hmem
    · exact hfirst type beyond heq.symm
    · exact hrest type beyond hmem
  cases hread with
  | null => cases hmemory
  | boolean => cases hmemory
  | longer type data beyond _ hrest hfront hlonger =>
    cases hmemory
    refine hwrong ?_ hrest ((uidMatches_iff hne _).mpr ((prefix_terminated hzero _ _).mpr hfront))
    intro type' beyond' heq
    cases heq
    exact lt_irrefl _ hlonger
  | octets type data beyond _ hrest hfront =>
    cases hmemory
    exact hwrong (by simp) hrest ((uidMatches_iff hne _).mpr hfront)
  | object names _ hrest hfront =>
    cases hmemory
    exact hwrong (by simp) hrest
      ((uidMatches_iff hne _).mpr ((prefix_terminated hzero names []).mpr hfront))
  | hidden _ _ type beyond hlater hfirst =>
    intro hiff
    have hmatch := hiff.mpr ⟨type, beyond, List.mem_cons_of_mem _ hlater⟩
    rw [hfirst memory hmemory] at hmatch
    cases hmatch

/-- The check is exact on every attribute that it does not mishandle, and on no
other. -/
theorem popExact_iff (hattr : getAttrByNid req nidChallengePassword = some attr) :
    PopExact ctx ssl req attr ↔ ¬ Mishandled ssl attr := by
  unfold PopExact estTlsUidAuth
  rw [hattr]
  simp only
  cases hvalues : attr.values with
  | nil => simp [Mishandled, hvalues]
  | cons first rest =>
    cases huid : estGetTlsUid ssl false with
    | none => simp [Mishandled, huid]
    | some text =>
      cases text with
      | none => simp [Mishandled, huid, hvalues]
      | some uid =>
        obtain ⟨hne, hzero⟩ := estGetTlsUid_text huid
        have hcondition : Mishandled ssl attr ↔ Misread uid first rest := by
          simp [Mishandled, huid, hvalues]
        have hholds : (∃ other, some (some uid) = some (some other) ∧ HoldsUid attr other) ↔
            ∃ type beyond, .string type uid beyond ∈ first :: rest := by
          simp [HoldsUid, hvalues]
        rw [hcondition, hholds]
        constructor
        · rintro ⟨rc, hrc, hiff⟩ hread
          obtain ⟨memory, hmemory, rfl⟩ := Option.map_eq_some_iff.mp hrc
          refine hread.wrong hne hzero hmemory ?_
          rw [← hiff]
          split <;> simp_all
        · intro hread
          obtain ⟨memory, hmemory, hiff⟩ := match_first_iff hne hzero hread
          refine ⟨_, Option.map_eq_some_iff.mpr ⟨memory, hmemory, rfl⟩, ?_⟩
          rw [← hiff]
          split <;> simp_all

end Exactness

section Honest

/-- The two ends of one TLS session. -/
structure Peers (client server : Ssl) : Prop where
  version : server.version = client.version
  sessionReused : server.sessionReused = client.sessionReused
  finished : server.finished = client.peerFinished
  peerFinished : server.peerFinished = client.finished

theorem Peers.uid {client server : Ssl} (h : Peers client server) :
    estGetTlsUid server false = estGetTlsUid client true := by
  have hfirst : firstFinished server false = firstFinished client true := by
    unfold firstFinished
    rw [h.sessionReused, h.finished, h.peerFinished]
    cases client.sessionReused <;> rfl
  have hmax : maxUidText server = maxUidText client := by
    unfold maxUidText
    rw [h.version]
  unfold estGetTlsUid
  rw [hfirst, hmax]

/-- A value without the memory behind it, which is all that travels. -/
def bareValue : Asn1Type → Asn1Type
  | .string type data _ => .string type data []
  | .octets type data _ => .octets type data []
  | value => value

def bareAttribute (attr : X509Attribute) : X509Attribute :=
  { attr with values := attr.values.map bareValue }

/-- The server reads the attributes that were sent. -/
def Received (sent req : X509Req) : Prop :=
  req.attributes.map bareAttribute = sent.attributes.map bareAttribute

theorem getAttrByNid_received {sent req : X509Req} (h : Received sent req) (nid : Nid) :
    (getAttrByNid req nid).map bareAttribute = (getAttrByNid sent nid).map bareAttribute := by
  have hfind : ∀ attrs : List X509Attribute,
      (attrs.find? fun attr => attr.nid = nid).map bareAttribute =
        (attrs.map bareAttribute).find? fun attr => attr.nid = nid := by
    intro attrs
    rw [List.find?_map]
    rfl
  unfold getAttrByNid
  rw [hfind, hfind, h]

/-- A request with the text of the session as its only value is accepted. -/
theorem estTlsUidAuth_accepts (ctx : EstCtx) {ssl : Ssl} {uid : Bytes}
    (huid : estGetTlsUid ssl false = some (some uid)) {sent req : X509Req}
    (hsent : getAttrByNid sent nidChallengePassword =
      some { nid := nidChallengePassword, values := [.string .utf8 uid []] })
    (hreceived : Received sent req) : estTlsUidAuth ctx ssl req = some .none := by
  obtain ⟨hne, -⟩ := estGetTlsUid_text huid
  have hread := getAttrByNid_received hreceived nidChallengePassword
  rw [hsent, Option.map_some, Option.map_eq_some_iff] at hread
  obtain ⟨attr, hattr, hbare⟩ := hread
  have hvalues : attr.values.map bareValue = [.string .utf8 uid []] :=
    congrArg X509Attribute.values hbare
  obtain ⟨beyond, hvalue⟩ : ∃ beyond, attr.values = [.string .utf8 uid beyond] := by
    rw [List.map_eq_singleton_iff] at hvalues
    obtain ⟨value, hlist, hvalue⟩ := hvalues
    cases value with
    | string type data beyond =>
      cases hvalue
      exact ⟨beyond, hlist⟩
    | octets type data beyond => cases hvalue
    | object names => cases hvalue
    | null => cases hvalue
    | boolean => cases hvalue
  have hmatch : uidMatches uid (some (uid ++ 0 :: beyond)) = true :=
    (uidMatches_iff hne _).mpr (List.prefix_append _ _)
  unfold estTlsUidAuth
  rw [hattr]
  simp only [hvalue, huid, stringMemory, Option.map_some, hmatch, if_true]

variable {C : Crypto} {client : Ssl} {sent : X509Req}

theorem addChallengePassword_attr {csr : X509Req} (uid : Bytes)
    (h : ∀ attr ∈ csr.attributes, attr.nid ≠ nidChallengePassword) :
    getAttrByNid (addChallengePassword csr uid) nidChallengePassword =
      some { nid := nidChallengePassword, values := [.string .utf8 uid []] } := by
  have hnone : (csr.attributes.find? fun attr => attr.nid = nidChallengePassword) = none := by
    rw [List.find?_eq_none]
    intro attr hattr
    simpa using h attr hattr
  unfold getAttrByNid addChallengePassword
  rw [List.find?_append, hnone]
  rfl

/-- What the client sends for a request of the application. -/
theorem estClientEnrollPkcs10_sent {csr : X509Req} {key : EvpPkey} {md : Digest}
    (h : estClientEnrollPkcs10 C true client csr key md = some (.ok sent)) :
    ∃ uid, estGetTlsUid client true = some (some uid) ∧
      getAttrByNid sent nidChallengePassword =
        some { nid := nidChallengePassword, values := [.string .utf8 uid []] } := by
  simp only [estClientEnrollPkcs10, if_true] at h
  obtain ⟨text, htext, hresult⟩ := Option.map_eq_some_iff.mp h
  cases text with
  | none => cases hresult
  | some uid =>
    simp only [estX509ReqSign] at hresult
    refine ⟨uid, htext, ?_⟩
    split at hresult
    · cases hresult
    · rename_i signed hsigned
      cases hresult
      obtain ⟨signature, -, rfl⟩ := Option.map_eq_some_iff.mp hsigned
      apply addChallengePassword_attr
      intro attr hattr
      simpa using (List.mem_filter.mp hattr).2

/-- What the client sends for a common name. -/
theorem estGeneratePkcs10_sent {cn : Bytes} {key : EvpPkey} {md : Digest}
    (h : estGeneratePkcs10 C true client cn key md = some (.ok sent)) :
    ∃ uid, estGetTlsUid client true = some (some uid) ∧
      getAttrByNid sent nidChallengePassword =
        some { nid := nidChallengePassword, values := [.string .utf8 uid []] } := by
  obtain ⟨text, htext, hresult⟩ := Option.map_eq_some_iff.mp h
  cases text with
  | none => cases hresult
  | some uid =>
    simp only [reqSetPubkey, estX509ReqSign, if_true] at hresult
    refine ⟨uid, htext, ?_⟩
    split at hresult
    · cases hresult
    · rename_i keyed hkeyed
      obtain ⟨pub, -, rfl⟩ := Option.map_eq_some_iff.mp hkeyed
      split at hresult
      · cases hresult
      · rename_i signed hsigned
        cases hresult
        obtain ⟨signature, -, rfl⟩ := Option.map_eq_some_iff.mp hsigned
        exact addChallengePassword_attr uid (by simp)

end Honest

/-- The check is exact on a request with a challenge password if and only if it
does not mishandle the attribute; and what a client of the library builds with
the proof at the other end of the session is accepted. -/
theorem tls_uid_auth_exact (C : Crypto) :
    (∀ ctx ssl req attr, getAttrByNid req nidChallengePassword = some attr →
      (PopExact ctx ssl req attr ↔ ¬ Mishandled ssl attr)) ∧
    ∀ ctx client server csr cn key md sent req, Peers client server → Received sent req →
      (estClientEnrollPkcs10 C true client csr key md = some (.ok sent) ∨
        estGeneratePkcs10 C true client cn key md = some (.ok sent)) →
      estTlsUidAuth ctx server req = some .none := by
  constructor
  · intro ctx ssl req attr hattr
    exact popExact_iff hattr
  · intro ctx client server csr cn key md sent req hpeers hreceived hbuilt
    obtain ⟨uid, huid, hsent⟩ := hbuilt.elim estClientEnrollPkcs10_sent estGeneratePkcs10_sent
    rw [← hpeers.uid] at huid
    exact estTlsUidAuth_accepts ctx huid hsent hreceived

section Instances

open LibEst.Server.Reference

/-- A request whose challenge password is this text. -/
def challengeReq (text : Bytes) : X509Req :=
  { clientReq with
    attributes := [{ nid := nidChallengePassword, values := [.string .utf8 text []] }] }

theorem tls_uid_auth_exact_equal :
    PopExact authCtx devSession (challengeReq (ascii "Y2xpZW50IGRvbmUu"))
      { nid := nidChallengePassword, values := [.string .utf8 (ascii "Y2xpZW50IGRvbmUu") []] } := by
  refine ((tls_uid_auth_exact hostCrypto).1 authCtx devSession
    (challengeReq (ascii "Y2xpZW50IGRvbmUu")) _ rfl).mpr ?_
  have huid : estGetTlsUid devSession false = some (some (ascii "Y2xpZW50IGRvbmUu")) := by decide
  rintro (hnone | hempty | ⟨uid, first, rest, htext, hvalues, hread⟩)
  · rw [huid] at hnone
    cases hnone
  · cases hempty
  · rw [huid, Option.some.injEq, Option.some.injEq] at htext
    subst htext
    cases hvalues
    cases hread with
    | longer _ _ _ _ _ _ hlonger => exact lt_irrefl _ hlonger
    | hidden _ _ _ _ hlater _ => cases hlater

/-- A challenge password that goes on behind the text of the session passes. -/
theorem tls_uid_auth_accepts_longer :
    ¬ PopExact authCtx devSession (challengeReq (ascii "Y2xpZW50IGRvbmUu and more"))
      { nid := nidChallengePassword
        values := [.string .utf8 (ascii "Y2xpZW50IGRvbmUu and more") []] } := by
  rintro ⟨rc, hrc, hiff⟩
  have haccepted : estTlsUidAuth authCtx devSession
      (challengeReq (ascii "Y2xpZW50IGRvbmUu and more")) = some .none := by decide
  rw [haccepted, Option.some.injEq] at hrc
  obtain ⟨uid, huid, type, beyond, hmem⟩ := hiff.mp hrc.symm
  have htext : estGetTlsUid devSession false = some (some (ascii "Y2xpZW50IGRvbmUu")) := by decide
  rw [htext, Option.some.injEq, Option.some.injEq] at huid
  rw [List.mem_singleton, Asn1Type.string.injEq] at hmem
  have hlength := congrArg List.length (huid.trans hmem.2.1)
  revert hlength
  decide

end Instances

end LibEst.Server.TlsUid
