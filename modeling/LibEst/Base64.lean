import Mathlib.Data.List.TakeWhile
import LibEst.Lib.ByteString

/-! The base64 helpers of `est.c`. Encoding follows OpenSSL's base64 filter:
groups of three bytes, and a line feed after every 64 characters unless the
filter was told not to. What the filter makes of a text that is being decoded is
OpenSSL's business, so reading through it is a parameter. -/
namespace LibEst.Base64

open LibEst.Lib.ByteString

def alphabet : Bytes :=
  ascii "ABCDEFGHIJKLMNOPQRSTUVWXYZabcdefghijklmnopqrstuvwxyz0123456789+/"

def symbol (value : Nat) : UInt8 := alphabet.getD (value % 64) 0

def padding : UInt8 := 61

def newline : UInt8 := 10

def groups : Bytes → Bytes
  | [] => []
  | [a] => [symbol (a.toNat / 4), symbol (a.toNat * 16), padding, padding]
  | [a, b] =>
      [symbol (a.toNat / 4), symbol (a.toNat * 16 + b.toNat / 16), symbol (b.toNat * 4), padding]
  | a :: b :: c :: rest =>
      symbol (a.toNat / 4) :: symbol (a.toNat * 16 + b.toNat / 16) ::
        symbol (b.toNat * 4 + c.toNat / 64) :: symbol c.toNat :: groups rest

/-- 48 bytes fill a line of 64 characters. -/
def lines : Nat → Bytes → Bytes
  | 0, _ => []
  | _ + 1, [] => []
  | fuel + 1, src => groups (src.take 48) ++ newline :: lines fuel (src.drop 48)

def base64Text (nl : Bool) (src : Bytes) : Bytes :=
  if nl then lines src.length src else groups src

example : base64Text true (ascii "libest") = ascii "bGliZXN0\n" := by decide

/-- The text is copied only if it fits, but its terminator is written behind it
in any case: `none` where that write leaves the destination. -/
def estBase64Encode (src : Bytes) (maxDstLen : Nat) (nl : Bool) : Option Bytes :=
  let maxSrcLen := maxDstLen * 3 / 4 + 1
  if src.length > maxSrcLen then some []
  else if src = [] then some []
  else
    let text := base64Text nl src
    if text.length < maxDstLen then some text else none

theorem groups_length (src : Bytes) : (groups src).length = (src.length + 2) / 3 * 4 := by
  fun_induction groups src with
  | case1 => rfl
  | case2 a => simp
  | case3 a b => simp
  | case4 a b c rest ih =>
    simp only [List.length_cons, ih]
    omega

private theorem lines_length_le (fuel : Nat) (src : Bytes) (h : src.length ≤ fuel) :
    (lines fuel src).length = (src.length + 2) / 3 * 4 + (src.length + 47) / 48 := by
  induction fuel generalizing src with
  | zero =>
    have hsrc : src = [] := List.length_eq_zero_iff.mp (Nat.le_zero.mp h)
    subst hsrc
    rfl
  | succ fuel ih =>
    cases src with
    | nil => rfl
    | cons a rest =>
      have hlen : (a :: rest).length = rest.length + 1 := rfl
      rw [hlen] at h
      have hdrop : ((a :: rest).drop 48).length ≤ fuel := by
        rw [List.length_drop, hlen]
        omega
      rw [lines, List.length_append, List.length_cons, groups_length, ih _ hdrop,
        List.length_take, List.length_drop, hlen]
      · omega
      · simp

theorem base64Text_length (src : Bytes) :
    (base64Text true src).length = (src.length + 2) / 3 * 4 + (src.length + 47) / 48 := by
  rw [base64Text, if_pos rfl, lines_length_le _ _ le_rfl]

/-- A destination of twice the source is enough, except for the shortest texts. -/
theorem estBase64Encode_twice (src : Bytes) (hempty : src.length ≠ 0) (hone : src.length ≠ 1)
    (htwo : src.length ≠ 2) (hfour : src.length ≠ 4) :
    estBase64Encode src (src.length * 2) true = some (base64Text true src) := by
  have hne : src ≠ [] := fun h => hempty (by simp [h])
  have hlen : (base64Text true src).length < src.length * 2 := by
    rw [base64Text_length]
    omega
  rw [estBase64Encode, if_neg (by omega), if_neg hne, if_pos hlen]

theorem estBase64Encode_twice_short {src : Bytes}
    (h : src.length = 1 ∨ src.length = 2 ∨ src.length = 4) :
    estBase64Encode src (src.length * 2) true = none := by
  have hne : src ≠ [] := by
    rintro rfl
    simp at h
  have hlen : ¬ (base64Text true src).length < src.length * 2 := by
    rw [base64Text_length]
    omega
  rw [estBase64Encode, if_neg (by omega), if_neg hne, if_neg hlen]

/-- A text that was written into a destination of twice the source is all of it. -/
theorem eq_of_estBase64Encode_twice {src text : Bytes}
    (h : estBase64Encode src (src.length * 2) true = some text) : text = base64Text true src := by
  unfold estBase64Encode at h
  simp only at h
  rw [if_neg (by omega)] at h
  split at h
  · rename_i hempty
    rw [← Option.some.inj h, hempty]
    rfl
  · split at h
    · exact (Option.some.inj h).symm
    · cases h

/-- OpenSSL's base64 filter in front of a memory buffer: the bytes that a read
of at most `max` bytes delivers, with or without the single line option. -/
abbrev BioRead := Bool → Bytes → Nat → Bytes

def isspace (c : UInt8) : Bool := c = 32 ∨ (9 ≤ c ∧ c ≤ 13)

structure Analysis where
  lenNoWhitespace : Nat
  len : Nat
  containsNewline : Bool

/-- A line feed counts only when the first one is not the last character. -/
def estBase64StrAnalyze (src : Bytes) : Analysis where
  lenNoWhitespace := src.countP fun c => !isspace c
  len := src.length
  containsNewline :=
    match src.findIdx? (· = newline) with
    | none => false
    | some i => i ≠ src.length - 1

/-- Length of the padding at the end of a text, whitespace aside; `none` where
fewer than three characters are left to look at. -/
def trailingPad (src : Bytes) : Option Nat :=
  match src.reverse.dropWhile isspace with
  | last :: before :: _ :: _ =>
      some (if last = padding then if before = padding then 2 else 1 else 0)
  | _ => none

/-- The decoded bytes; the empty list stands for a failure, as the length zero
does in the source. -/
def estBase64Decode (bioRead : BioRead) (text : Bytes) (dstSize : Nat) : Bytes :=
  let src := text.takeWhile (· ≠ 0)
  let info := estBase64StrAnalyze src
  let maxIn := if dstSize % 3 ≠ 0 then (dstSize / 3 + 1) * 4 else dstSize / 3 * 4
  if info.lenNoWhitespace > maxIn then []
  else if info.lenNoWhitespace % 4 ≠ 0 then []
  else
    match trailingPad src with
    | none => []
    | some pad =>
        let expected := 3 * info.lenNoWhitespace / 4 - pad
        let decoded := bioRead (!info.containsNewline) src dstSize
        if decoded.length = expected then decoded else []

section Reader

def symbolValue (c : UInt8) : Nat := alphabet.findIdx (· = c)

def ungroup : Bytes → Bytes
  | a :: b :: c :: d :: rest =>
      let first := UInt8.ofNat (symbolValue a * 4 + symbolValue b / 16)
      let second := UInt8.ofNat (symbolValue b * 16 + symbolValue c / 4)
      let third := UInt8.ofNat (symbolValue c * 64 + symbolValue d)
      if c = padding then [first]
      else if d = padding then [first, second]
      else first :: second :: third :: ungroup rest
  | _ => []

/-- Line feeds are skipped in either mode on the texts that reach the filter. -/
def readBase64 : BioRead := fun _ src max =>
  (ungroup (src.filter fun c => !isspace c)).take max

example : readBase64 true (ascii "bGliZXN0\n") 16 = ascii "libest" := by decide

end Reader

section RoundTrip

private theorem alphabet_printable :
    ∀ c ∈ alphabet, c ≠ 0 ∧ isspace c = false ∧ c ≠ newline ∧ c ≠ padding := by
  decide +kernel

theorem symbol_mem (value : Nat) : symbol value ∈ alphabet := by
  have hlt : value % 64 < alphabet.length := Nat.mod_lt value (by decide)
  rw [symbol, List.getD_eq_getElem?_getD, List.getElem?_eq_getElem hlt, Option.getD_some]
  exact List.getElem_mem hlt

theorem symbol_ne_padding (value : Nat) : symbol value ≠ padding :=
  (alphabet_printable _ (symbol_mem value)).2.2.2

theorem symbolValue_symbol (value : Nat) : symbolValue (symbol value) = value % 64 := by
  have hall : ∀ n < 64, symbolValue (alphabet.getD n 0) = n := by decide +kernel
  exact hall _ (Nat.mod_lt value (by decide))

theorem groups_printable (src : Bytes) :
    ∀ c ∈ groups src, c ≠ 0 ∧ isspace c = false ∧ c ≠ newline := by
  have hsymbol : ∀ value, symbol value ≠ 0 ∧ isspace (symbol value) = false ∧
      symbol value ≠ newline := by
    intro value
    obtain ⟨hzero, hspace, hline, -⟩ := alphabet_printable _ (symbol_mem value)
    exact ⟨hzero, hspace, hline⟩
  have hpadding : padding ≠ 0 ∧ isspace padding = false ∧ padding ≠ newline := by decide
  fun_induction groups src with
  | case1 => simp
  | case2 a => simp [hsymbol, hpadding]
  | case3 a b => simp [hsymbol, hpadding]
  | case4 a b c rest ih =>
    intro x hx
    simp only [List.mem_cons] at hx
    rcases hx with rfl | rfl | rfl | rfl | hx
    · exact hsymbol _
    · exact hsymbol _
    · exact hsymbol _
    · exact hsymbol _
    · exact ih x hx

theorem ungroup_groups (src : Bytes) : ungroup (groups src) = src := by
  fun_induction groups src with
  | case1 => rfl
  | case2 a =>
    simp only [ungroup, if_true, symbolValue_symbol]
    have hval : a.toNat / 4 % 64 * 4 + a.toNat * 16 % 64 / 16 = a.toNat := by
      have := a.toNat_lt
      omega
    rw [hval, UInt8.ofNat_toNat]
  | case3 a b =>
    have ha := a.toNat_lt
    have hb := b.toNat_lt
    have hfirst : a.toNat / 4 % 64 * 4 + (a.toNat * 16 + b.toNat / 16) % 64 / 16 = a.toNat := by
      omega
    have hsecond : (a.toNat * 16 + b.toNat / 16) % 64 * 16 + b.toNat * 4 % 64 / 4 =
        a.toNat % 4 * 256 + b.toNat := by
      omega
    have hlow : UInt8.ofNat (a.toNat % 4 * 256 + b.toNat) = b := by
      apply UInt8.toNat_inj.mp
      rw [UInt8.toNat_ofNat']
      omega
    simp only [ungroup, symbol_ne_padding, if_false, if_true, symbolValue_symbol]
    rw [hfirst, hsecond, hlow, UInt8.ofNat_toNat]
  | case4 a b c rest ih =>
    have ha := a.toNat_lt
    have hb := b.toNat_lt
    have hc := c.toNat_lt
    have hfirst : UInt8.ofNat
        (a.toNat / 4 % 64 * 4 + (a.toNat * 16 + b.toNat / 16) % 64 / 16) = a := by
      apply UInt8.toNat_inj.mp
      rw [UInt8.toNat_ofNat']
      omega
    have hsecond : UInt8.ofNat ((a.toNat * 16 + b.toNat / 16) % 64 * 16 +
        (b.toNat * 4 + c.toNat / 64) % 64 / 4) = b := by
      apply UInt8.toNat_inj.mp
      rw [UInt8.toNat_ofNat']
      omega
    have hthird : UInt8.ofNat ((b.toNat * 4 + c.toNat / 64) % 64 * 64 + c.toNat % 64) = c := by
      apply UInt8.toNat_inj.mp
      rw [UInt8.toNat_ofNat']
      omega
    simp only [ungroup, symbol_ne_padding, if_false, symbolValue_symbol, ih]
    rw [hfirst, hsecond, hthird]

/-- The filter, told not to expect line feeds, reads a text back. -/
def ReadsBack (bioRead : BioRead) : Prop :=
  ∀ (src : Bytes) (max : Nat), src.length ≤ max → bioRead true (base64Text false src) max = src

theorem readBase64_readsBack : ReadsBack readBase64 := by
  intro src max hmax
  have hfilter : (groups src).filter (fun c => !isspace c) = groups src := by
    apply List.filter_eq_self.mpr
    intro c hc
    rw [(groups_printable src c hc).2.1]
    rfl
  rw [readBase64, base64Text, if_neg (by decide), hfilter, ungroup_groups,
    List.take_of_length_le hmax]

private theorem trailingPad_of_printable {src : Bytes} (h : ∀ c ∈ src, isspace c = false) :
    trailingPad src =
      match src.reverse with
      | last :: before :: _ :: _ =>
          some (if last = padding then if before = padding then 2 else 1 else 0)
      | _ => none := by
  have hkeep : src.reverse.dropWhile isspace = src.reverse := by
    cases hrev : src.reverse with
    | nil => rfl
    | cons last rest =>
      have hlast : isspace last = false := h last (List.mem_reverse.mp (by simp [hrev]))
      rw [List.dropWhile_cons, hlast]
      rfl
  rw [trailingPad, hkeep]

theorem trailingPad_groups {src : Bytes} (hne : src ≠ []) :
    trailingPad (groups src) = some ((3 - src.length % 3) % 3) := by
  rw [trailingPad_of_printable fun c hc => (groups_printable src c hc).2.1]
  fun_induction groups src with
  | case1 => exact absurd rfl hne
  | case2 a => simp
  | case3 a b => simp [symbol_ne_padding]
  | case4 a b c rest ih =>
    cases rest with
    | nil => simp [groups, symbol_ne_padding]
    | cons d more =>
      have hrest := ih (by simp)
      have hlen : 4 ≤ (groups (d :: more)).length := by
        rw [groups_length, List.length_cons]
        omega
      have hmod : ((a :: b :: c :: d :: more).length) % 3 = (d :: more).length % 3 := by
        simp only [List.length_cons]
        omega
      rw [hmod]
      rw [← List.length_reverse] at hlen
      simp only [List.reverse_cons, List.append_assoc]
      match hrev : (groups (d :: more)).reverse with
      | last :: before :: third :: others =>
        rw [hrev] at hrest
        exact hrest
      | [] | [_] | [_, _] =>
        rw [hrev] at hlen
        simp at hlen

theorem takeWhile_of_free {src : Bytes} (hsrc : ∀ c ∈ src, c ≠ 0) :
    src.takeWhile (· ≠ 0) = src := by
  apply List.takeWhile_eq_self_iff.mpr
  intro c hc
  simp [hsrc c hc]

/-- The text that the library writes without line feeds decodes to its source. -/
theorem estBase64Decode_of_le {bioRead : BioRead} (hread : ReadsBack bioRead) {src : Bytes}
    (hne : src ≠ []) {dstSize : Nat} (hfits : src.length ≤ dstSize) :
    estBase64Decode bioRead (base64Text false src) dstSize = src := by
  have htext : base64Text false src = groups src := rfl
  have hlen := groups_length src
  have hwhole : (groups src).takeWhile (· ≠ 0) = groups src :=
    takeWhile_of_free fun c hc => (groups_printable src c hc).1
  have hcount : (groups src).countP (fun c => !isspace c) = (groups src).length := by
    apply List.countP_eq_length.mpr
    intro c hc
    rw [(groups_printable src c hc).2.1]
    rfl
  have hline : (groups src).findIdx? (· = newline) = none := by
    apply List.findIdx?_eq_none_iff.mpr
    intro c hc
    simp [(groups_printable src c hc).2.2]
  have hpos : 0 < src.length := List.length_pos_iff.mpr hne
  rw [htext]
  unfold estBase64Decode
  simp only [hwhole, estBase64StrAnalyze, hcount, hline, trailingPad_groups hne]
  rw [if_neg (by split <;> omega), if_neg (by omega)]
  have hdecoded : bioRead (!false) (groups src) dstSize = src := hread src _ hfits
  rw [hdecoded, if_pos (by omega)]

theorem estBase64Decode_base64Text {bioRead : BioRead} (hread : ReadsBack bioRead) {src : Bytes}
    (hne : src ≠ []) :
    estBase64Decode bioRead (base64Text false src) (2 * (base64Text false src).length) = src := by
  apply estBase64Decode_of_le hread hne
  have hlen : (base64Text false src).length = (src.length + 2) / 3 * 4 := groups_length src
  omega

theorem four_le_length_of_decode {bioRead : BioRead} {text : Bytes} {size : Nat}
    (h : 2 ≤ (estBase64Decode bioRead text size).length) : 4 ≤ text.length := by
  have hprefix : (text.takeWhile (· ≠ 0)).length ≤ text.length :=
    (List.takeWhile_prefix _).length_le
  have hcount : (text.takeWhile (· ≠ 0)).countP (fun c => !isspace c) ≤
      (text.takeWhile (· ≠ 0)).length := List.countP_le_length
  have hbound : estBase64Decode bioRead text size = [] ∨
      (text.takeWhile (· ≠ 0)).countP (fun c => !isspace c) % 4 = 0 ∧
        (estBase64Decode bioRead text size).length ≤
          3 * (text.takeWhile (· ≠ 0)).countP (fun c => !isspace c) / 4 := by
    unfold estBase64Decode estBase64StrAnalyze
    generalize text.takeWhile (· ≠ 0) = src
    dsimp only
    by_cases hlong : src.countP (fun c => !isspace c) >
        if size % 3 ≠ 0 then (size / 3 + 1) * 4 else size / 3 * 4
    · rw [if_pos hlong]
      exact Or.inl rfl
    · rw [if_neg hlong]
      by_cases hfour : src.countP (fun c => !isspace c) % 4 ≠ 0
      · rw [if_pos hfour]
        exact Or.inl rfl
      · rw [if_neg hfour]
        cases trailingPad src with
        | none => exact Or.inl rfl
        | some pad =>
          generalize bioRead _ src size = decoded
          dsimp only
          split
          · exact Or.inr ⟨not_not.mp hfour, by omega⟩
          · exact Or.inl rfl
  rcases hbound with hnil | ⟨hfour, hbound⟩
  · rw [hnil] at h
    cases h
  · omega

end RoundTrip

section Reading

/-- The filter delivers the front of what a text stands for, which is never more
than its length and its padding allow. -/
def ReadsUpTo (bioRead : BioRead) (decoded : Bool → Bytes → Bytes) : Prop :=
  (∀ nl src max, bioRead nl src max = (decoded nl src).take max) ∧
    ∀ nl src pad, trailingPad src = some pad →
      (src.countP fun c => !isspace c) % 4 = 0 →
      (decoded nl src).length ≤ 3 * (src.countP fun c => !isspace c) / 4 - pad

theorem trailingPad_le {src : Bytes} {pad : Nat} (h : trailingPad src = some pad) :
    pad ≤ 2 := by
  unfold trailingPad at h
  split at h
  · cases h
    split
    · split <;> omega
    · omega
  · cases h

/-- Decoding fails where the result does not fit the destination, and is the same
wherever it does. -/
theorem estBase64Decode_eq_of_readsUpTo {bioRead : BioRead} {decoded : Bool → Bytes → Bytes}
    (h : ReadsUpTo bioRead decoded) (text : Bytes) (size : Nat) :
    estBase64Decode bioRead text size =
      if (estBase64Decode bioRead text text.length).length ≤ size then
        estBase64Decode bioRead text text.length
      else [] := by
  have hprefix : (text.takeWhile (· ≠ 0)).length ≤ text.length :=
    (List.takeWhile_prefix _).length_le
  unfold estBase64Decode estBase64StrAnalyze
  generalize text.takeWhile (· ≠ 0) = src at hprefix
  dsimp only
  have hcount : (src.countP fun c => !isspace c) ≤ src.length := List.countP_le_length
  have hwhole : ¬ (src.countP fun c => !isspace c) > if text.length % 3 ≠ 0 then
      (text.length / 3 + 1) * 4 else text.length / 3 * 4 := by
    split <;> omega
  rw [if_neg hwhole]
  by_cases hfour : (src.countP fun c => !isspace c) % 4 ≠ 0
  · rw [if_pos hfour, if_pos hfour]
    simp
  · rw [if_neg hfour, if_neg hfour]
    cases hpad : trailingPad src with
    | none => simp
    | some pad =>
      dsimp only
      have hle := trailingPad_le hpad
      generalize (!match src.findIdx? fun x => decide (x = newline) with
        | none => false
        | some i => decide (i ≠ src.length - 1)) = nl
      have hbound := h.2 nl src pad hpad (not_not.mp hfour)
      rw [h.1, h.1, List.take_of_length_le (by omega : (decoded nl src).length ≤ text.length)]
      generalize decoded nl src = data at hbound
      by_cases hexact : data.length = 3 * (src.countP fun c => !isspace c) / 4 - pad
      · simp only [if_pos hexact]
        by_cases hfits : data.length ≤ size
        · have hroom : ¬ (src.countP fun c => !isspace c) > if size % 3 ≠ 0 then
              (size / 3 + 1) * 4 else size / 3 * 4 := by
            split <;> omega
          rw [if_neg hroom, if_pos hfits, List.take_of_length_le hfits, if_pos hexact]
        · have hshort : ¬ (data.take size).length =
              3 * (src.countP fun c => !isspace c) / 4 - pad := by
            rw [List.length_take]
            omega
          rw [if_neg hfits, if_neg hshort, ite_self]
      · have hshort : ¬ (data.take size).length =
            3 * (src.countP fun c => !isspace c) / 4 - pad := by
          rw [List.length_take]
          omega
        simp only [if_neg hexact, if_neg hshort]
        simp

private theorem ungroup_length_le (src : Bytes) : (ungroup src).length ≤ 3 * src.length / 4 := by
  fun_induction ungroup src with
  | case1 a b d rest =>
    simp only [List.length_cons, List.length_nil]
    omega
  | case2 a b c rest =>
    simp only [List.length_cons, List.length_nil]
    omega
  | case3 a b c d rest first second third hc hd ih =>
    simp only [List.length_cons]
    omega
  | case4 => exact Nat.zero_le _

/-- Padding at the end of a text takes away from what it stands for. -/
private theorem ungroup_length_padded {src : Bytes} {pad : Nat} (hpad : pad = 1 ∨ pad = 2)
    (hend : List.replicate pad padding <:+ src) (hfour : src.length % 4 = 0) :
    (ungroup src).length ≤ 3 * src.length / 4 - pad := by
  fun_induction ungroup src with
  | case1 a b d rest first =>
    simp only [List.length_cons, List.length_nil] at hfour ⊢
    omega
  | case2 a b c rest first second hc =>
    simp only [List.length_cons, List.length_nil] at hfour ⊢
    rcases hpad with rfl | rfl
    · omega
    · cases rest with
      | cons e more =>
        simp only [List.length_cons] at hfour ⊢
        omega
      | nil =>
        obtain ⟨front, hfront⟩ := hend
        have hreverse := congrArg List.reverse hfront
        simp only [List.reverse_append, List.replicate_succ,
          List.replicate_zero, List.cons_append, List.nil_append, List.reverse_cons,
          List.reverse_nil, List.cons.injEq] at hreverse
        exact absurd hreverse.2.1.symm hc
  | case3 a b c d rest first second third hc hd ih =>
    cases rest with
    | nil =>
      obtain ⟨front, hfront⟩ := hend
      have hreverse := congrArg List.reverse hfront
      rcases hpad with rfl | rfl <;>
        simp only [List.reverse_append, List.replicate_succ,
          List.replicate_zero, List.cons_append, List.nil_append, List.reverse_cons,
          List.reverse_nil, List.cons.injEq] at hreverse <;>
        exact absurd hreverse.1.symm hd
    | cons e more =>
      simp only [List.length_cons] at hfour ⊢ ih
      have hrest : List.replicate pad padding <:+ e :: more := by
        apply List.suffix_of_suffix_length_le hend ⟨[a, b, c, d], rfl⟩
        rw [List.length_replicate, List.length_cons]
        omega
      have := ih hrest (by omega)
      omega
  | case4 => exact Nat.zero_le _

/-- What is dropped behind the last character is not kept by the filter either. -/
theorem reverse_filter_of_last {src rest : Bytes} {last : UInt8}
    (hlast : src.reverse.dropWhile isspace = last :: rest) :
    (src.filter fun c => !isspace c).reverse = last :: rest.filter fun c => !isspace c := by
  have hspace : isspace last = false := by
    have := List.head_dropWhile_not isspace (l := src.reverse) (by rw [hlast]; simp)
    simpa [hlast] using this
  rw [← List.filter_reverse, ← List.takeWhile_append_dropWhile (p := isspace) (l := src.reverse),
    List.filter_append, hlast]
  have hdropped : (src.reverse.takeWhile isspace).filter (fun c => !isspace c) = [] := by
    apply List.filter_eq_nil_iff.mpr
    intro c hc
    simp [List.mem_takeWhile_imp hc]
  rw [hdropped, List.nil_append, List.filter_cons, hspace]
  rfl

theorem readBase64_readsUpTo :
    ReadsUpTo readBase64 fun _ src => ungroup (src.filter fun c => !isspace c) := by
  refine ⟨fun _ _ _ => rfl, ?_⟩
  intro _ src pad hpad hfour
  rw [List.countP_eq_length_filter] at hfour ⊢
  unfold trailingPad at hpad
  split at hpad
  · rename_i last before third rest hlast
    have hreverse := reverse_filter_of_last hlast
    have hforward : src.filter (fun c => !isspace c) =
        ((before :: third :: rest).filter fun c => !isspace c).reverse ++ [last] := by
      rw [← List.reverse_reverse (src.filter _), hreverse, List.reverse_cons]
    cases hpad
    split
    · rename_i hpadding
      split
      · rename_i hbefore
        apply ungroup_length_padded (Or.inr rfl) _ hfour
        rw [hforward, hpadding, hbefore, List.filter_cons]
        exact ⟨((third :: rest).filter fun c => !isspace c).reverse, by simp [isspace, padding]⟩
      · apply ungroup_length_padded (Or.inl rfl) _ hfour
        rw [hforward, hpadding]
        exact List.suffix_append _ _
    · exact ungroup_length_le _
  · cases hpad

end Reading

end LibEst.Base64
