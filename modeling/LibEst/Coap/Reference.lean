import LibEst.Coap.ReqTable

/-! A platform that runs: insertion sort, the halving search, and address texts
in dotted decimal and in colon-separated groups. -/
namespace LibEst.Coap.Reference

open LibEst.Lib.ByteString LibEst.Lib.SlotArray LibEst.Coap.ReqTable

def dot : UInt8 := 46
def colon : UInt8 := 58

def octets (addr : BitVec 32) : List Nat :=
  [addr.toNat / 2 ^ 24, addr.toNat / 2 ^ 16 % 256, addr.toNat / 2 ^ 8 % 256, addr.toNat % 256]

def hextets (addr : BitVec 128) : List Nat :=
  [addr.toNat / 2 ^ 112, addr.toNat / 2 ^ 96 % 65536, addr.toNat / 2 ^ 80 % 65536,
    addr.toNat / 2 ^ 64 % 65536, addr.toNat / 2 ^ 48 % 65536, addr.toNat / 2 ^ 32 % 65536,
    addr.toNat / 2 ^ 16 % 65536, addr.toNat % 65536]

def joined (separator : UInt8) (parts : List Bytes) : Bytes := [separator].intercalate parts

def addressText : IpAddr → Bytes
  | .v4 addr => joined dot ((octets addr).map (numeral 10))
  | .v6 addr => joined colon ((hextets addr).map (numeral 16))

example : addressText (.v4 0x01020304) = ascii "1.2.3.4" := by decide

private theorem joined_injective {base : Nat} (hlow : 1 < base) (hhigh : base ≤ 16)
    {separator : UInt8} (hsep : ∀ d, d < 16 → digitByte d ≠ separator) {xs ys : List Nat}
    (hx : xs ≠ []) (hy : ys ≠ [])
    (h : joined separator (xs.map (numeral base)) = joined separator (ys.map (numeral base))) :
    xs = ys := by
  have hfree : ∀ zs : List Nat, ∀ part ∈ zs.map (numeral base), separator ∉ part := by
    intro zs part hpart
    obtain ⟨n, -, rfl⟩ := List.mem_map.mp hpart
    exact not_mem_numeral hlow hhigh hsep n
  have hsplit := congrArg (List.splitOn separator) h
  unfold joined at hsplit
  rw [List.splitOn_intercalate separator (hfree xs) (by simpa using hx),
    List.splitOn_intercalate separator (hfree ys) (by simpa using hy)] at hsplit
  exact List.map_injective_iff.mpr (numeral_injective hlow hhigh) hsplit

private theorem octets_injective {a b : BitVec 32} (h : octets a = octets b) : a = b := by
  simp only [octets, List.cons.injEq, and_true] at h
  apply BitVec.eq_of_toNat_eq
  omega

private theorem hextets_injective {a b : BitVec 128} (h : hextets a = hextets b) : a = b := by
  simp only [hextets, List.cons.injEq, and_true] at h
  apply BitVec.eq_of_toNat_eq
  omega

private theorem dot_free (d : Nat) (hd : d < 16) : digitByte d ≠ dot := by
  revert d
  decide

private theorem colon_free (d : Nat) (hd : d < 16) : digitByte d ≠ colon := by
  revert d
  decide

private theorem colon_not_mem_v4 (a : BitVec 32) : colon ∉ addressText (.v4 a) := by
  have hfree := fun n => not_mem_numeral (by decide : 1 < 10) (by decide) colon_free n
  simp only [addressText, joined, octets, List.map_cons, List.map_nil, List.intercalate,
    List.intersperse, List.flatten_cons, List.flatten_nil, List.mem_append, List.mem_singleton,
    List.not_mem_nil, not_or, hfree, not_false_eq_true, true_and, and_true]
  decide

private theorem colon_mem_v6 (a : BitVec 128) : colon ∈ addressText (.v6 a) := by
  simp [addressText, joined, hextets, List.intercalate, List.intersperse]

theorem addressText_injective {a b : IpAddr} (h : addressText a = addressText b) : a = b := by
  cases a with
  | v4 a =>
    cases b with
    | v4 b =>
      have hoctets := joined_injective (by decide) (by decide) dot_free (by simp [octets])
        (by simp [octets]) h
      rw [octets_injective hoctets]
    | v6 b => exact absurd (h ▸ colon_mem_v6 b) (colon_not_mem_v4 a)
  | v6 a =>
    cases b with
    | v4 b => exact absurd (h ▸ colon_mem_v6 a) (colon_not_mem_v4 b)
    | v6 b =>
      have hhextets := joined_injective (by decide) (by decide) colon_free (by simp [hextets])
        (by simp [hextets]) h
      rw [hextets_injective hhextets]

private theorem joined_length_le (separator : UInt8) {k : Nat} {parts : List Bytes}
    (h : ∀ part ∈ parts, part.length ≤ k) :
    (joined separator parts).length ≤ parts.length * (k + 1) := by
  unfold joined
  induction parts with
  | nil => simp
  | cons part parts ih =>
    have hpart := h part (by simp)
    have hrest := ih fun other hother => h other (by simp [hother])
    cases parts with
    | nil =>
      simp only [List.intercalate_singleton, List.length_cons, List.length_nil]
      omega
    | cons next parts =>
      rw [List.intercalate_cons_cons]
      have hsum : (parts.length + 1 + 1) * (k + 1) = (parts.length + 1) * (k + 1) + (k + 1) :=
        Nat.succ_mul _ _
      simp only [List.length_append, List.length_cons, List.length_nil] at hrest ⊢
      omega

theorem addressText_length (a : IpAddr) : (addressText a).length < inet6AddrStrLen := by
  cases a with
  | v4 a =>
    refine Nat.lt_of_le_of_lt (joined_length_le dot (k := 3) ?_) (by simp [octets, inet6AddrStrLen])
    intro part hpart
    obtain ⟨n, hn, rfl⟩ := List.mem_map.mp hpart
    refine numeral_length_le (by decide) (by decide) ?_
    simp only [octets, List.mem_cons, List.not_mem_nil, or_false] at hn
    have ha := a.isLt
    omega
  | v6 a =>
    refine Nat.lt_of_le_of_lt (joined_length_le colon (k := 4) ?_)
      (by simp [hextets, inet6AddrStrLen])
    intro part hpart
    obtain ⟨n, hn, rfl⟩ := List.mem_map.mp hpart
    refine numeral_length_le (by decide) (by decide) ?_
    simp only [hextets, List.mem_cons, List.not_mem_nil, or_false] at hn
    have ha := a.isLt
    omega

theorem addressText_ne_nil (a : IpAddr) : addressText a ≠ [] := by
  cases a with
  | v4 a =>
    intro h
    simp [addressText, joined, octets, List.intercalate, List.intersperse] at h
  | v6 a => exact List.ne_nil_of_mem (colon_mem_v6 a)

def hostPlatform : Platform where
  sorter := reference CoapReqNode.key
  inetNtop a := some (addressText a)
  inetNtop_injective h₁ h₂ := addressText_injective (by rw [Option.some.inj h₁, Option.some.inj h₂])
  inetNtop_nonempty h := Option.some.inj h ▸ addressText_ne_nil _
  inetNtop_length h := Option.some.inj h ▸ addressText_length _

end LibEst.Coap.Reference
