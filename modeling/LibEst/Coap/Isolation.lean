import LibEst.Coap.Server
import LibEst.Coap.ReferenceEnv

/-! Isolation of peers. A key is the decimal port with the address text right
behind it and nothing between them, so two peers share a key exactly when the
last digits of one port are the first characters of the other address. Where no
two peers of a run are related in that way, each peer is served as if alone. -/
namespace LibEst.Coap.Isolation

open LibEst.Basic LibEst.Lib.ByteString LibEst.Lib.SlotArray LibEst.Lib.Machine
open LibEst.Coap.ReqTable LibEst.Coap.TableMap LibEst.Coap.TableInvariant
open LibEst.Coap.Handlers LibEst.Coap.HandlerCases LibEst.Coap.Server

/-- The port of `p` ends in digits that `q`'s address begins with: what is left
of the port is the port of `q`, and what follows the digits is `p`'s address. -/
def KeyAbsorbs (P : Platform) (p q : SockAddr) : Prop :=
  ∃ ipP portP ipQ portQ, estInvokeEnrollGetIpPort P p = some (ipP, portP) ∧
    estInvokeEnrollGetIpPort P q = some (ipQ, portQ) ∧
    ∃ digits, digits ≠ [] ∧ decimal portP = decimal portQ ++ digits ∧ ipQ = digits ++ ipP

section Keys

variable (P : Platform)

theorem getIpPort_injective {p q : SockAddr} {ip : Bytes} {port : Nat}
    (hp : estInvokeEnrollGetIpPort P p = some (ip, port))
    (hq : estInvokeEnrollGetIpPort P q = some (ip, port)) : p = q := by
  have hinet : ∀ {addr : IpAddr} {p : UInt16},
      (P.inetNtop addr).map (fun text => (text, p.toNat)) = some (ip, port) →
      P.inetNtop addr = some ip ∧ p.toNat = port := by
    intro addr p h
    obtain ⟨text, htext, heq⟩ := Option.map_eq_some_iff.mp h
    cases heq
    exact ⟨htext, rfl⟩
  cases p with
  | inet p a =>
    obtain ⟨ha, hpa⟩ := hinet hp
    cases q with
    | inet q b =>
      obtain ⟨hb, hqb⟩ := hinet hq
      cases P.inetNtop_injective ha hb
      rw [UInt16.toNat_inj.mp (hpa.trans hqb.symm)]
    | inet6 q b =>
      obtain ⟨hb, -⟩ := hinet hq
      cases P.inetNtop_injective ha hb
    | unspec =>
      cases hq
      exact absurd rfl (P.inetNtop_nonempty ha)
  | inet6 p a =>
    obtain ⟨ha, hpa⟩ := hinet hp
    cases q with
    | inet q b =>
      obtain ⟨hb, -⟩ := hinet hq
      cases P.inetNtop_injective ha hb
    | inet6 q b =>
      obtain ⟨hb, hqb⟩ := hinet hq
      cases P.inetNtop_injective ha hb
      rw [UInt16.toNat_inj.mp (hpa.trans hqb.symm)]
    | unspec =>
      cases hq
      exact absurd rfl (P.inetNtop_nonempty ha)
  | unspec =>
    cases hp
    cases q with
    | inet q b =>
      obtain ⟨hb, -⟩ := hinet hq
      exact absurd rfl (P.inetNtop_nonempty hb)
    | inet6 q b =>
      obtain ⟨hb, -⟩ := hinet hq
      exact absurd rfl (P.inetNtop_nonempty hb)
    | unspec => rfl

theorem KeyAbsorbs.sameKey {p q : SockAddr} (h : KeyAbsorbs P p q) :
    ∃ key, searchKey P p = some key ∧ searchKey P q = some key := by
  obtain ⟨ipP, portP, ipQ, portQ, hp, hq, digits, -, hport, hip⟩ := h
  refine ⟨decimal portP ++ ipP, by simp [searchKey, hp], ?_⟩
  simp [searchKey, hq, hport, hip]

theorem keyAbsorbs_irrefl (p : SockAddr) : ¬ KeyAbsorbs P p p := by
  rintro ⟨ipP, portP, ipQ, portQ, hp, hq, digits, hne, hport, -⟩
  cases hp.symm.trans hq
  exact hne (List.self_eq_append_right.mp hport)

/-- Two different peers share a key exactly when one absorbs the other. -/
theorem sameKey_iff {p q : SockAddr} (hne : p ≠ q) :
    (∃ key, searchKey P p = some key ∧ searchKey P q = some key) ↔
      KeyAbsorbs P p q ∨ KeyAbsorbs P q p := by
  constructor
  · rintro ⟨key, hp, hq⟩
    obtain ⟨⟨ipP, portP⟩, hgetP, rfl⟩ := Option.map_eq_some_iff.mp hp
    obtain ⟨⟨ipQ, portQ⟩, hgetQ, hkey⟩ := Option.map_eq_some_iff.mp hq
    simp only at hkey
    have hdigits : ∀ digits, (decimal portP = decimal portQ ++ digits ∧ ipQ = digits ++ ipP) ∨
        (decimal portQ = decimal portP ++ digits ∧ ipP = digits ++ ipQ) → digits ≠ [] := by
      rintro digits hsplit rfl
      have heq : portP = portQ ∧ ipP = ipQ := by
        rcases hsplit with ⟨hport, hip⟩ | ⟨hport, hip⟩
        · rw [List.append_nil] at hport
          exact ⟨decimal_injective hport, hip.symm⟩
        · rw [List.append_nil] at hport
          exact ⟨(decimal_injective hport).symm, hip⟩
      obtain ⟨rfl, rfl⟩ := heq
      exact hne (getIpPort_injective P hgetP hgetQ)
    rcases List.append_eq_append_iff.mp hkey with ⟨digits, hport, hip⟩ | ⟨digits, hport, hip⟩
    · exact Or.inl ⟨ipP, portP, ipQ, portQ, hgetP, hgetQ, digits,
        hdigits digits (Or.inl ⟨hport, hip⟩), hport, hip⟩
    · exact Or.inr ⟨ipQ, portQ, ipP, portP, hgetQ, hgetP, digits,
        hdigits digits (Or.inr ⟨hport, hip⟩), hport, hip⟩
  · rintro (h | h)
    · exact h.sameKey P
    · obtain ⟨key, hq, hp⟩ := h.sameKey P
      exact ⟨key, hp, hq⟩

end Keys

/-- No peer of the run absorbs another. -/
def PeersApart (P : Platform) (inputs : List PeerEvent) : Prop :=
  ∀ a ∈ inputs, ∀ b ∈ inputs, ¬ KeyAbsorbs P a.peer b.peer

variable (E : Env)

theorem PeersApart.keyAlone {inputs : List PeerEvent} (h : PeersApart E.toPlatform inputs)
    {input : PeerEvent} (hmem : input ∈ inputs) : KeyAlone E input.peer inputs := by
  intro other hother hne key hkey hsame
  rcases (sameKey_iff E.toPlatform hne).mp ⟨key, hkey, hsame⟩ with habsorbs | habsorbs
  · exact h other hother input hmem habsorbs
  · exact h input hmem other hother habsorbs

section Instances

open LibEst.Coap.ReferenceEnv

/-- 1.2.3.4 from port 5683, and 31.2.3.4 from port 568. -/
def peerLong : SockAddr := .inet 5683 0x01020304
def peerShort : SockAddr := .inet 568 0x1f020304

end Instances

end LibEst.Coap.Isolation
