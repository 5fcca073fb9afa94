import Mathlib.Data.Nat.Digits.Defs
import Mathlib.Data.Nat.Digits.Lemmas
import Mathlib.Data.List.Basic

/-! Byte strings: the text of a literal, the decimal text of a number, and
fixed buffers whose tail is zero. A buffer is kept as the list of the bytes
written so far; every byte past its end reads as zero. -/
namespace LibEst.Lib.ByteString

abbrev Bytes := List UInt8

instance lawfulBEqByte : LawfulBEq UInt8 := inferInstance

instance lawfulBEqBytes : LawfulBEq Bytes := inferInstance

/-- What is to hold of the bytes of a string is checked along the string, and not for all
bytes there are. -/
instance (priority := 2000) decidableForallBytes (p : UInt8 → Prop) [DecidablePred p]
    (bytes : Bytes) : Decidable (∀ c ∈ bytes, p c) :=
  List.decidableBAll p bytes

def ascii (text : String) : Bytes := text.toList.map fun c => UInt8.ofNat c.toNat

def digitByte (d : Nat) : UInt8 := UInt8.ofNat (if d < 10 then 48 + d else 87 + d)

/-- The text of a number in a base up to sixteen, without leading zeros. -/
def numeral (base n : Nat) : Bytes :=
  if n = 0 then [digitByte 0] else (Nat.digits base n).reverse.map digitByte

/-- The text that `%d` prints for a number that is not negative. -/
def decimal (n : Nat) : Bytes := numeral 10 n

example : decimal 5683 = ascii "5683" := by decide

private theorem digitByte_injective {c d : Nat} (hc : c < 16) (hd : d < 16)
    (h : digitByte c = digitByte d) : c = d := by
  have hval := congrArg UInt8.toNat h
  unfold digitByte at hval
  rw [UInt8.toNat_ofNat', UInt8.toNat_ofNat'] at hval
  split at hval <;> split at hval <;> omega

private theorem map_digitByte_injective {xs ys : List Nat} (hx : ∀ d ∈ xs, d < 16)
    (hy : ∀ d ∈ ys, d < 16) (h : xs.map digitByte = ys.map digitByte) : xs = ys := by
  induction xs generalizing ys with
  | nil =>
    cases ys with
    | nil => rfl
    | cons y ys => cases h
  | cons x xs ih =>
    cases ys with
    | nil => cases h
    | cons y ys =>
      rw [List.map_cons, List.map_cons, List.cons.injEq] at h
      have hxy := digitByte_injective (hx x (by simp)) (hy y (by simp)) h.1
      have hrest := ih (fun d hd => hx d (by simp [hd])) (fun d hd => hy d (by simp [hd])) h.2
      rw [hxy, hrest]

section Literals

variable {chars : List Char}

/-- A literal stands for a list of characters. Read so, nothing of its encoding needs to be
evaluated. -/
theorem ascii_ofList (chars : List Char) :
    ascii (String.ofList chars) = chars.map fun c => UInt8.ofNat c.toNat := by
  rw [ascii, String.toList_ofList]

theorem ascii_forall {p : UInt8 → Prop} (h : ∀ c ∈ chars.map fun c => UInt8.ofNat c.toNat, p c) :
    ∀ c ∈ ascii (String.ofList chars), p c := by
  rw [ascii_ofList]
  exact h

theorem ascii_length_le {n : Nat} (h : chars.length ≤ n) :
    (ascii (String.ofList chars)).length ≤ n := by
  rw [ascii_ofList, List.length_map]
  exact h

theorem ascii_ne_nil {c : Char} : ascii (String.ofList (c :: chars)) ≠ [] := by
  rw [ascii_ofList]
  exact List.cons_ne_nil _ _

theorem ascii_append (front back : String) : ascii (front ++ back) = ascii front ++ ascii back := by
  rw [ascii, ascii, ascii, String.toList_append, List.map_append]

end Literals

section Numerals

variable {base : Nat}

private theorem digits_lt_sixteen (hlow : 1 < base) (hhigh : base ≤ 16) {n d : Nat}
    (hd : d ∈ (Nat.digits base n).reverse) : d < 16 :=
  Nat.lt_of_lt_of_le (Nat.digits_lt_base hlow (List.mem_reverse.mp hd)) hhigh

private theorem numeral_zero_ne (hlow : 1 < base) (hhigh : base ≤ 16) {n : Nat} (hn : n ≠ 0) :
    numeral base n ≠ numeral base 0 := by
  intro h
  rw [numeral, if_neg hn, numeral, if_pos rfl] at h
  have hdigits : (Nat.digits base n).reverse = [0] :=
    map_digitByte_injective (fun d => digits_lt_sixteen hlow hhigh) (by simp) h
  have hzero : Nat.digits base n = [0] := by
    rw [← List.reverse_reverse (Nat.digits base n), hdigits]
    rfl
  exact Nat.getLast_digit_ne_zero base hn (by simp [hzero])

theorem numeral_injective (hlow : 1 < base) (hhigh : base ≤ 16) :
    Function.Injective (numeral base) := by
  intro m n h
  by_cases hm : m = 0
  · by_contra hne
    exact numeral_zero_ne hlow hhigh (fun hn => hne (hm.trans hn.symm)) (hm ▸ h.symm)
  · by_cases hn : n = 0
    · exact absurd (hn ▸ h) (numeral_zero_ne hlow hhigh hm)
    · rw [numeral, if_neg hm, numeral, if_neg hn] at h
      have hdigits := map_digitByte_injective (fun d => digits_lt_sixteen hlow hhigh)
        (fun d => digits_lt_sixteen hlow hhigh) h
      exact Nat.digits_inj_iff.mp (List.reverse_injective hdigits)

theorem numeral_ne_nil (base n : Nat) : numeral base n ≠ [] := by
  unfold numeral
  split
  · simp
  · simpa [Nat.digits_eq_nil_iff_eq_zero]

theorem numeral_length_le (hlow : 1 < base) {n k : Nat} (hk : 0 < k) (hn : n < base ^ k) :
    (numeral base n).length ≤ k := by
  unfold numeral
  split
  · exact hk
  · rw [List.length_map, List.length_reverse]
    exact (Nat.digits_length_le_iff hlow n).mpr hn

/-- Numerals have no separator characters in them. -/
theorem not_mem_numeral (hlow : 1 < base) (hhigh : base ≤ 16) {c : UInt8}
    (hc : ∀ d, d < 16 → digitByte d ≠ c) (n : Nat) : c ∉ numeral base n := by
  intro hmem
  unfold numeral at hmem
  split at hmem
  · rw [List.mem_singleton] at hmem
    exact hc 0 (by decide) hmem.symm
  · obtain ⟨d, hd, hdc⟩ := List.mem_map.mp hmem
    exact hc d (digits_lt_sixteen hlow hhigh hd) hdc

end Numerals

theorem decimal_injective : Function.Injective decimal :=
  numeral_injective (by decide) (by decide)

theorem decimal_ne_nil (n : Nat) : decimal n ≠ [] := numeral_ne_nil 10 n

section Buffers

/-- The first `n` bytes of a buffer. -/
def readFirst (buf : Bytes) (n : Nat) : Bytes := (buf ++ List.replicate n 0).take n

def firstByte (buf : Bytes) : UInt8 := buf.headD 0

/-- A copy of `data` into a buffer at an offset; the other bytes stay. -/
def writeAt (buf : Bytes) (offset : Nat) (data : Bytes) : Bytes :=
  readFirst buf offset ++ data ++ buf.drop (offset + data.length)

@[simp] theorem readFirst_length (buf : Bytes) (n : Nat) : (readFirst buf n).length = n := by
  simp [readFirst]

theorem readFirst_prefix (front back : Bytes) :
    readFirst (front ++ back) front.length = front := by
  simp [readFirst]

/-- Writing right behind the bytes in use extends them. -/
theorem readFirst_writeAt (buf : Bytes) (offset : Nat) (data : Bytes) :
    readFirst (writeAt buf offset data) (offset + data.length) = readFirst buf offset ++ data := by
  have hlen : offset + data.length = (readFirst buf offset ++ data).length := by simp
  conv_lhs => rw [hlen]
  exact readFirst_prefix _ _

theorem readFirst_zero (buf : Bytes) : readFirst buf 0 = [] := by simp [readFirst]

end Buffers

end LibEst.Lib.ByteString
