import LibEst.Lib.ByteString

/-! The part of CBOR that a sequence of numbers and byte strings needs: heads of
every width for reading, heads of the least width for writing, and arrays. What is
written reads back, with any bytes behind it left alone. -/
namespace LibEst.Lib.Cbor

open LibEst.Lib.ByteString

/-- The bytes of a number in a field of `count` bytes, the highest first. -/
def argument : Nat → Nat → Bytes
  | 0, _ => []
  | count + 1, n => UInt8.ofNat (n / 256 ^ count % 256) :: argument count n

def argumentValue (bytes : Bytes) : Nat := bytes.foldl (fun acc b => acc * 256 + b.toNat) 0

@[simp] theorem argument_length (count n : Nat) : (argument count n).length = count := by
  induction count with
  | zero => rfl
  | succ count ih => rw [argument, List.length_cons, ih]

theorem foldl_argument (count n acc : Nat) :
    (argument count n).foldl (fun acc b => acc * 256 + b.toNat) acc =
      acc * 256 ^ count + n % 256 ^ count := by
  induction count generalizing acc with
  | zero => simp [argument, Nat.mod_one]
  | succ count ih =>
    have hbyte : (UInt8.ofNat (n / 256 ^ count % 256)).toNat = n / 256 ^ count % 256 := by
      rw [UInt8.toNat_ofNat', Nat.mod_mod]
    have hsplit : n % 256 ^ (count + 1) = n % 256 ^ count + 256 ^ count * (n / 256 ^ count % 256) := by
      rw [Nat.pow_succ, Nat.mod_mul]
    rw [argument, List.foldl_cons, hbyte, ih, hsplit]
    ring

theorem argumentValue_argument {count n : Nat} (h : n < 256 ^ count) :
    argumentValue (argument count n) = n := by
  rw [argumentValue, foldl_argument, Nat.zero_mul, Nat.zero_add, Nat.mod_eq_of_lt h]

theorem argumentValue_lt (bytes : Bytes) : argumentValue bytes < 256 ^ bytes.length := by
  have hfold : ∀ acc, bytes.foldl (fun acc b => acc * 256 + b.toNat) acc <
      (acc + 1) * 256 ^ bytes.length := by
    induction bytes with
    | nil =>
      intro acc
      simp
    | cons b rest ih =>
      intro acc
      have hb := b.toNat_lt
      rw [List.foldl_cons, List.length_cons, Nat.pow_succ']
      calc rest.foldl (fun acc b => acc * 256 + b.toNat) (acc * 256 + b.toNat)
          < (acc * 256 + b.toNat + 1) * 256 ^ rest.length := ih _
        _ ≤ ((acc + 1) * 256) * 256 ^ rest.length := Nat.mul_le_mul_right _ (by omega)
        _ = (acc + 1) * (256 * 256 ^ rest.length) := by ring
  simpa [argumentValue] using hfold 0

section Heads

/-- How many bytes the argument of a head takes, at the least. -/
def width (n : Nat) : Nat :=
  if n ≤ 23 then 0 else if n ≤ 255 then 1 else if n ≤ 65535 then 2 else if n ≤ 4294967295 then 4 else 8

/-- The low five bits of the initial byte. -/
def info (n : Nat) : Nat :=
  if n ≤ 23 then n else if n ≤ 255 then 24 else if n ≤ 65535 then 25 else if n ≤ 4294967295 then 26
  else 27

/-- The head of a data item, in its shortest form. -/
def head (major n : Nat) : Bytes := UInt8.ofNat (major * 32 + info n) :: argument (width n) n

/-- The width that the low five bits of an initial byte stand for. -/
def widthOf : Nat → Option Nat
  | 24 => some 1
  | 25 => some 2
  | 26 => some 4
  | 27 => some 8
  | _ => none

/-- A head in any of its forms: the major type, the argument and what follows. -/
def readHead : Bytes → Option (Nat × Nat × Bytes)
  | [] => none
  | b :: rest =>
      if b.toNat % 32 < 24 then some (b.toNat / 32, b.toNat % 32, rest)
      else
        (widthOf (b.toNat % 32)).bind fun count =>
          if rest.length < count then none
          else some (b.toNat / 32, argumentValue (rest.take count), rest.drop count)

theorem info_lt (n : Nat) : info n < 28 := by
  unfold info
  split
  · omega
  · split
    · omega
    · split
      · omega
      · split <;> omega

theorem widthOf_info {n : Nat} (h : 23 < n) : widthOf (info n) = some (width n) := by
  have hsmall : ¬ n ≤ 23 := by omega
  unfold info width
  rw [if_neg hsmall, if_neg hsmall]
  by_cases hbyte : n ≤ 255
  · rw [if_pos hbyte, if_pos hbyte]
    rfl
  · rw [if_neg hbyte, if_neg hbyte]
    by_cases hshort : n ≤ 65535
    · rw [if_pos hshort, if_pos hshort]
      rfl
    · rw [if_neg hshort, if_neg hshort]
      split <;> rfl

theorem lt_width {n : Nat} (hlow : 23 < n) (hhigh : n < 2 ^ 64) : n < 256 ^ width n := by
  unfold width
  rw [if_neg (by omega)]
  split
  · omega
  · split
    · omega
    · split
      · omega
      · omega

theorem readHead_head {major n : Nat} (hmajor : major < 8) (hn : n < 2 ^ 64) (rest : Bytes) :
    readHead (head major n ++ rest) = some (major, n, rest) := by
  have hinfo := info_lt n
  have hbyte : (UInt8.ofNat (major * 32 + info n)).toNat = major * 32 + info n := by
    rw [UInt8.toNat_ofNat']
    omega
  rw [head, List.cons_append, readHead, hbyte]
  have hdiv : (major * 32 + info n) / 32 = major := by omega
  have hmod : (major * 32 + info n) % 32 = info n := by omega
  rw [hdiv, hmod]
  by_cases hsmall : n ≤ 23
  · have hwhole : info n = n := by rw [info, if_pos hsmall]
    have hempty : argument (width n) n = [] := by rw [width, if_pos hsmall, argument]
    rw [hwhole, hempty, if_pos (by omega), List.nil_append]
  · have hlarge : 24 ≤ info n := by
      unfold info
      rw [if_neg hsmall]
      split
      · exact le_rfl
      · split
        · omega
        · split <;> omega
    have hlength : (argument (width n) n).length = width n := argument_length _ _
    rw [if_neg (by omega), widthOf_info (by omega), Option.bind_some,
      if_neg (by rw [List.length_append, hlength]; omega), List.take_left' hlength,
      List.drop_left' hlength, argumentValue_argument (lt_width (by omega) hn)]

/-- No other head of a type and an argument is shorter. -/
theorem head_shortest {text : Bytes} {major n : Nat} (h : readHead text = some (major, n, [])) :
    (head major n).length ≤ text.length := by
  have hhead : (head major n).length = width n + 1 := by
    rw [head, List.length_cons, argument_length]
  rw [hhead]
  cases text with
  | nil => cases h
  | cons b rest =>
    rw [List.length_cons]
    rw [readHead] at h
    by_cases hsmall : b.toNat % 32 < 24
    · rw [if_pos hsmall] at h
      cases h
      rw [width, if_pos (by omega)]
      exact le_rfl
    · rw [if_neg hsmall] at h
      obtain ⟨count, hcount, hread⟩ := Option.bind_eq_some_iff.mp h
      split at hread
      · cases hread
      · rename_i hlong
        simp only [Option.some.injEq, Prod.mk.injEq] at hread
        obtain ⟨-, rfl, -⟩ := hread
        have htake : (rest.take count).length = count := List.length_take_of_le (by omega)
        have hvalue := argumentValue_lt (rest.take count)
        rw [htake] at hvalue
        suffices hwidth : width (argumentValue (rest.take count)) ≤ count by omega
        generalize argumentValue (rest.take count) = value at hvalue
        have hcounts : count = 1 ∨ count = 2 ∨ count = 4 ∨ count = 8 := by
          unfold widthOf at hcount
          split at hcount <;> simp_all
        unfold width
        rcases hcounts with rfl | rfl | rfl | rfl
        · split
          · omega
          · rw [if_pos (by omega)]
        · split
          · omega
          · split
            · omega
            · rw [if_pos (by omega)]
        · split
          · omega
          · split
            · omega
            · split
              · omega
              · rw [if_pos (by omega)]
        · split
          · omega
          · split
            · omega
            · split
              · omega
              · split <;> omega

end Heads

section Items

inductive Item where
  | uint (n : Nat)
  | bytes (data : Bytes)
  deriving DecidableEq

def encode : Item → Bytes
  | .uint n => head 0 n
  | .bytes data => head 2 data.length ++ data

def encodeArray (items : List Item) : Bytes := head 4 items.length ++ items.flatMap encode

def readItem (text : Bytes) : Option (Item × Bytes) :=
  (readHead text).bind fun (major, n, rest) =>
    if major = 0 then some (.uint n, rest)
    else if major = 2 then
      if rest.length < n then none else some (.bytes (rest.take n), rest.drop n)
    else none

def readItems : Nat → Bytes → Option (List Item × Bytes)
  | 0, text => some ([], text)
  | count + 1, text => do
      let (item, rest) ← readItem text
      let (items, rest) ← readItems count rest
      pure (item :: items, rest)

/-- An array of numbers and byte strings, and what follows it. -/
def readArray (text : Bytes) : Option (List Item × Bytes) :=
  (readHead text).bind fun (major, n, rest) => if major = 4 then readItems n rest else none

/-- A head can hold the number, or the length of the string. -/
def Item.Fits : Item → Prop
  | .uint n => n < 2 ^ 64
  | .bytes data => data.length < 2 ^ 64

theorem readItem_encode {item : Item} (h : item.Fits) (rest : Bytes) :
    readItem (encode item ++ rest) = some (item, rest) := by
  cases item with
  | uint n =>
    rw [readItem, encode, readHead_head (by decide) h]
    rfl
  | bytes data =>
    rw [readItem, encode, List.append_assoc, readHead_head (by decide) h]
    simp only [Option.bind_some]
    rw [if_neg (by decide), if_pos trivial, if_neg (by rw [List.length_append]; omega),
      List.take_left, List.drop_left]

theorem readItems_flatMap {items : List Item} (h : ∀ item ∈ items, item.Fits) (rest : Bytes) :
    readItems items.length (items.flatMap encode ++ rest) = some (items, rest) := by
  induction items with
  | nil => rfl
  | cons item items ih =>
    rw [List.flatMap_cons, List.append_assoc, List.length_cons, readItems,
      readItem_encode (h item (by simp))]
    simp [ih fun other hother => h other (by simp [hother])]

theorem readArray_encodeArray {items : List Item} (h : ∀ item ∈ items, item.Fits)
    (hcount : items.length < 2 ^ 64) (rest : Bytes) :
    readArray (encodeArray items ++ rest) = some (items, rest) := by
  rw [readArray, encodeArray, List.append_assoc, readHead_head (by decide) hcount]
  simp only [Option.bind_some, if_true]
  exact readItems_flatMap h rest

end Items

end LibEst.Lib.Cbor
