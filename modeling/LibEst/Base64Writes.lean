import LibEst.Base64

/-! What the encoder of `est.c` writes behind its destination pointer. The room that it
takes the destination to have is estimated from the length of the source, so the text and
its terminator are looked at as writes into memory. -/
namespace LibEst.Base64Writes

open LibEst.Base64 LibEst.Lib.ByteString

/-- Bytes that are stored at an offset from a pointer. -/
structure Write where
  offset : Nat
  data : Bytes
  deriving DecidableEq, Repr

/-- A write stays inside a destination of `size` bytes. -/
def Write.Inside (size : Nat) (w : Write) : Prop := w.offset + w.data.length ≤ size

/-- The memory behind the pointer after some writes. -/
def perform (writes : List Write) (dst : Bytes) : Bytes :=
  writes.foldl (fun buf w => writeAt buf w.offset w.data) dst

/-- The stub copies nothing where the source is too long. -/
def memcpyS (dmax : Nat) (src : Bytes) : List Write :=
  if src.length > dmax then [] else [⟨0, src⟩]

structure Encoded where
  ret : Nat
  writes : List Write
  deriving DecidableEq, Repr

def intMax : Nat := 2 ^ 31 - 1

/-- `est_base64_encode` as a caller sees it: what it returns and what it stores. Null
where the product of the estimate does not fit an integer. -/
def estBase64EncodeWrites (src : Bytes) (maxDstLen : Nat) (nl : Bool) : Option Encoded :=
  if maxDstLen * 3 > intMax then none
  else
    let maxSrcLen := maxDstLen * 3 / 4 + 1
    if src.length > maxSrcLen then some ⟨0, []⟩
    -- nothing is written to the filter, which the source takes for an error
    else if src = [] then some ⟨0, []⟩
    else
      let text := base64Text nl src
      some ⟨text.length, memcpyS maxDstLen text ++ [⟨text.length, [0]⟩]⟩

example : estBase64EncodeWrites (ascii "libest") 9 false =
    some ⟨8, [⟨0, ascii "bGliZXN0"⟩, ⟨8, [0]⟩]⟩ := by decide

section Sizes

/-- The number of characters that stand for `n` bytes, line feeds included. -/
def encodedLength (n : Nat) (nl : Bool) : Nat :=
  (n + 2) / 3 * 4 + if nl then (n + 47) / 48 else 0

theorem base64Text_length_eq (src : Bytes) (nl : Bool) :
    (base64Text nl src).length = encodedLength src.length nl := by
  cases nl with
  | false => exact groups_length src
  | true => exact base64Text_length src

theorem encodedLength_pos {n : Nat} (hn : 0 < n) (nl : Bool) : 4 ≤ encodedLength n nl := by
  unfold encodedLength
  omega

end Sizes

section Writes

variable {src : Bytes} {maxDstLen : Nat} {nl : Bool}

theorem encodeWrites_refused (hmax : maxDstLen * 3 ≤ intMax)
    (h : src.length > maxDstLen * 3 / 4 + 1) :
    estBase64EncodeWrites src maxDstLen nl = some ⟨0, []⟩ := by
  unfold estBase64EncodeWrites
  rw [if_neg (by omega)]
  exact if_pos h

theorem encodeWrites_encoded (hmax : maxDstLen * 3 ≤ intMax) (hne : src ≠ [])
    (h : src.length ≤ maxDstLen * 3 / 4 + 1) :
    estBase64EncodeWrites src maxDstLen nl = some ⟨(base64Text nl src).length,
      memcpyS maxDstLen (base64Text nl src) ++ [⟨(base64Text nl src).length, [0]⟩]⟩ := by
  unfold estBase64EncodeWrites
  rw [if_neg (by omega)]
  dsimp only
  rw [if_neg (by omega), if_neg hne]

/-- The terminator is written whether or not there is room for it. -/
theorem encoded_inside_iff (text : Bytes) :
    (∀ w ∈ memcpyS maxDstLen text ++ [⟨text.length, [0]⟩], w.Inside maxDstLen) ↔
      text.length < maxDstLen := by
  constructor
  · intro h
    exact h ⟨text.length, [0]⟩ (List.mem_append_right _ (List.mem_singleton_self _))
  · intro h w hw
    unfold memcpyS at hw
    rw [if_neg (by omega)] at hw
    simp only [List.cons_append, List.nil_append, List.mem_cons, List.not_mem_nil, or_false] at hw
    cases hw with
    | inl htext =>
      subst htext
      unfold Write.Inside
      dsimp only
      omega
    | inr hzero =>
      subst hzero
      exact h

/-- The text stands in the destination with its terminator. -/
theorem perform_string {text : Bytes}
    (h : text.length < maxDstLen) (dst : Bytes) :
    ∃ behind, perform (memcpyS maxDstLen text ++ [⟨text.length, [0]⟩]) dst = text ++ 0 :: behind := by
  have htext : readFirst (writeAt dst 0 text) text.length = text := by
    have hfront := readFirst_writeAt dst 0 text
    rw [Nat.zero_add, readFirst_zero, List.nil_append] at hfront
    exact hfront
  unfold memcpyS
  rw [if_neg (by omega)]
  change ∃ behind, writeAt (writeAt dst 0 text) text.length [0] = text ++ 0 :: behind
  unfold writeAt at htext ⊢
  rw [htext, List.append_assoc]
  exact ⟨_, rfl⟩

theorem perform_encoded {text : Bytes} (h : text.length < maxDstLen) (dst : Bytes) :
    readFirst (perform (memcpyS maxDstLen text ++ [⟨text.length, [0]⟩]) dst) (text.length + 1) =
      text ++ [0] := by
  obtain ⟨behind, hstring⟩ := perform_string h dst
  have hlength : text.length + 1 = (text ++ [0]).length := by simp
  rw [hstring, hlength, List.append_cons]
  exact readFirst_prefix _ _

theorem readFirst_take {m n : Nat} (h : m ≤ n) (buf : Bytes) :
    (readFirst buf n).take m = readFirst buf m := by
  unfold readFirst
  rw [List.take_take, min_eq_left h, List.take_append, List.take_append, List.take_replicate,
    List.take_replicate]
  congr 2
  omega

private theorem encodeWrites_cases {e : Encoded}
    (h : estBase64EncodeWrites src maxDstLen nl = some e) :
    (e = ⟨0, []⟩ ∧ estBase64Encode src maxDstLen nl = some []) ∨
      (e = ⟨(base64Text nl src).length,
          memcpyS maxDstLen (base64Text nl src) ++ [⟨(base64Text nl src).length, [0]⟩]⟩ ∧
        estBase64Encode src maxDstLen nl =
          if (base64Text nl src).length < maxDstLen then some (base64Text nl src) else none) := by
  unfold estBase64EncodeWrites at h
  unfold estBase64Encode
  split at h
  · cases h
  · dsimp only at h ⊢
    split at h
    · rename_i hlong
      cases h
      exact Or.inl ⟨rfl, if_pos hlong⟩
    · rename_i hshort
      rw [if_neg hshort]
      split at h
      · rename_i hnil
        cases h
        exact Or.inl ⟨rfl, if_pos hnil⟩
      · rename_i hne
        cases h
        exact Or.inr ⟨rfl, if_neg hne⟩

/-- The pure function is what a caller reads in the destination, as long as all writes
are inside it. -/
theorem estBase64Encode_inside {e : Encoded}
    (h : estBase64EncodeWrites src maxDstLen nl = some e)
    (hinside : ∀ w ∈ e.writes, w.Inside maxDstLen) (dst : Bytes) :
    estBase64Encode src maxDstLen nl = some (readFirst (perform e.writes dst) e.ret) := by
  cases encodeWrites_cases h with
  | inl hempty =>
    rw [hempty.2, hempty.1, readFirst_zero]
  | inr htext =>
    rw [htext.1] at hinside ⊢
    have hroom := (encoded_inside_iff _).mp hinside
    rw [htext.2, if_pos hroom]
    apply congrArg some
    dsimp only
    rw [← readFirst_take (Nat.le_succ _), perform_encoded hroom, List.take_left]

theorem estBase64Encode_outside {e : Encoded}
    (h : estBase64EncodeWrites src maxDstLen nl = some e)
    (houtside : ¬ ∀ w ∈ e.writes, w.Inside maxDstLen) :
    estBase64Encode src maxDstLen nl = none := by
  cases encodeWrites_cases h with
  | inl hempty =>
    rw [hempty.1] at houtside
    exact absurd nofun houtside
  | inr htext =>
    rw [htext.1] at houtside
    rw [htext.2, if_neg (mt (encoded_inside_iff _).mpr houtside)]

end Writes

section Overrun

/-- What a caller relies on. A result that is not zero is the length of the text, which
stands in the destination with its terminator, and nothing is written behind it; what
does not fit is refused. -/
structure NeverOverruns (src : Bytes) (maxDstLen : Nat) (nl : Bool) (e : Encoded) : Prop where
  fits : 0 < e.ret → e.ret + 1 ≤ maxDstLen
  text : 0 < e.ret → ∀ dst,
    readFirst (perform e.writes dst) (e.ret + 1) = base64Text nl src ++ [0]
  refused : maxDstLen < (base64Text nl src).length + 1 → e.ret = 0
  inside : ∀ w ∈ e.writes, w.Inside maxDstLen

variable {src : Bytes} {maxDstLen : Nat} {nl : Bool}

theorem neverOverruns_refused : NeverOverruns src maxDstLen nl ⟨0, []⟩ where
  fits h := absurd h (Nat.lt_irrefl 0)
  text h := absurd h (Nat.lt_irrefl 0)
  refused _ := rfl
  inside := nofun

theorem neverOverruns_encoded_iff :
    NeverOverruns src maxDstLen nl ⟨(base64Text nl src).length,
      memcpyS maxDstLen (base64Text nl src) ++ [⟨(base64Text nl src).length, [0]⟩]⟩ ↔
        (base64Text nl src).length < maxDstLen := by
  constructor
  · intro h
    exact (encoded_inside_iff _).mp h.inside
  · intro h
    exact ⟨fun _ => h, fun _ => perform_encoded h, fun hlong => by omega,
      (encoded_inside_iff _).mpr h⟩

/-- The law holds where the estimate refuses the source or the text leaves room for its
terminator; in between, the terminator is written behind the destination. A destination
of twice the source is too small for one, two and four bytes. -/
theorem encode_never_overruns_iff {src : Bytes} (hsrc : 0 < src.length) (nl : Bool) :
    (∀ maxDstLen, 0 < maxDstLen →
      ((∃ e, estBase64EncodeWrites src maxDstLen nl = some e ∧ NeverOverruns src maxDstLen nl e) ↔
        maxDstLen * 3 ≤ intMax ∧
          (src.length > maxDstLen * 3 / 4 + 1 ∨ encodedLength src.length nl < maxDstLen))) ∧
    (src.length * 2 * 3 ≤ intMax →
      ((∃ e, estBase64EncodeWrites src (src.length * 2) true = some e ∧
          NeverOverruns src (src.length * 2) true e) ↔
        src.length ≠ 1 ∧ src.length ≠ 2 ∧ src.length ≠ 4)) := by
  have hne : src ≠ [] := List.length_pos_iff.mp hsrc
  have hlaw (maxDstLen : Nat) (nl : Bool) :
      (∃ e, estBase64EncodeWrites src maxDstLen nl = some e ∧ NeverOverruns src maxDstLen nl e) ↔
        maxDstLen * 3 ≤ intMax ∧
          (src.length > maxDstLen * 3 / 4 + 1 ∨ encodedLength src.length nl < maxDstLen) := by
    by_cases hmax : maxDstLen * 3 ≤ intMax
    · by_cases hlong : src.length > maxDstLen * 3 / 4 + 1
      · rw [encodeWrites_refused hmax hlong]
        simp [hmax, hlong, neverOverruns_refused]
      · rw [encodeWrites_encoded hmax hne (by omega)]
        simp only [Option.some.injEq, exists_eq_left', neverOverruns_encoded_iff, hmax, hlong,
          true_and, false_or]
        rw [base64Text_length_eq]
    · have hundefined : estBase64EncodeWrites src maxDstLen nl = none := if_pos (by omega)
      simp [hundefined, hmax]
  constructor
  · intro maxDstLen _
    exact hlaw maxDstLen nl
  · intro hmax
    rw [hlaw]
    unfold encodedLength
    rw [if_pos rfl]
    have hsmall : src.length = 1 ∨ src.length = 2 ∨ src.length = 3 ∨ src.length = 4 ∨
      src.length = 5 ∨ 6 ≤ src.length := by omega
    rcases hsmall with h | h | h | h | h | h
    all_goals omega

theorem encode_never_overruns_libest :
    ((∃ e, estBase64EncodeWrites (ascii "libest") 10 true = some e ∧
        NeverOverruns (ascii "libest") 10 true e) ↔
      10 * 3 ≤ intMax ∧ (6 > 10 * 3 / 4 + 1 ∨ encodedLength 6 true < 10)) ∧
    ((∃ e, estBase64EncodeWrites (ascii "libest") (6 * 2) true = some e ∧
        NeverOverruns (ascii "libest") (6 * 2) true e) ↔ (6 : Nat) ≠ 1 ∧ (6 : Nat) ≠ 2 ∧ (6 : Nat) ≠ 4) :=
  ⟨(@encode_never_overruns_iff (ascii "libest") (by decide) true).1 10 (by decide),
    (@encode_never_overruns_iff (ascii "libest") (by decide) true).2 (by decide)⟩

/-- An upload of one byte: the destination has two bytes, nothing is copied into it, and
the terminator of the text is written behind it. -/
theorem encode_overruns_one_byte :
    estBase64EncodeWrites [97] 2 true = some ⟨5, [⟨5, [0]⟩]⟩ ∧
      ¬ ∃ e, estBase64EncodeWrites [97] 2 true = some e ∧ NeverOverruns [97] 2 true e := by
  have hcall : estBase64EncodeWrites [97] 2 true = some ⟨5, [⟨5, [0]⟩]⟩ := by decide
  constructor
  · exact hcall
  · rw [hcall]
    intro h
    obtain ⟨e, he, hlaw⟩ := h
    cases he
    exact absurd (hlaw.fits (by decide)) (by decide)

end Overrun

end LibEst.Base64Writes
