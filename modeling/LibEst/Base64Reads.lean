import LibEst.Base64Writes

/-! What the decoder of `est.c` reads of its source string, and what it makes of it. The
padding is looked for from the end of the string, and the index is tested after the
character has been read. -/
namespace LibEst.Base64Reads

open LibEst.Base64 LibEst.Base64Writes LibEst.Lib.ByteString

/-- The data that is delivered, empty for a failure, and the indices into the source
string that are read for it. -/
structure Decoded where
  ret : Bytes
  reads : List Int
  deriving DecidableEq, Repr

/-- The most characters that a destination has room for. -/
def maxIn (dstSize : Nat) : Nat :=
  if dstSize % 3 ≠ 0 then (dstSize / 3 + 1) * 4 else dstSize / 3 * 4

/-- The scan for the last character that is not whitespace, from the character before an
index on: the indices it reads and the one it stops at. Whatever is in front of the string
ends the scan. -/
def scanBack (src : Bytes) : Nat → List Int × Int
  | 0 => ([-1], -1)
  | i + 1 =>
      if isspace (src.getD i 0) then ((i : Int) :: (scanBack src i).1, (scanBack src i).2)
      else ([(i : Int)], (i : Int))

/-- The indices below a bound. -/
def upTo (n : Nat) : List Int := (List.range n).map Int.ofNat

/-- `est_base64_decode` with the reads it makes: the analysis goes through the string and
its terminator, and the filter gets the string. Null where a length or a product does not
fit an integer. -/
def estBase64DecodeReads (bioRead : BioRead) (text : Bytes) (dstSize : Nat) : Option Decoded :=
  let src := text.takeWhile (· ≠ 0)
  let info := estBase64StrAnalyze src
  let analysed := upTo (src.length + 1)
  if src.length > intMax ∨ maxIn dstSize > intMax then none
  else if info.lenNoWhitespace > maxIn dstSize then some ⟨[], analysed⟩
  else if info.lenNoWhitespace % 4 ≠ 0 then some ⟨[], analysed⟩
  else
    let scan := scanBack src src.length
    if scan.2 < 2 then some ⟨[], analysed ++ scan.1⟩
    else
      let last := scan.2.toNat
      let ended := src.getD last 0 = padding
      let pad := if ended then if src.getD (last - 1) 0 = padding then 2 else 1 else 0
      let looked : List Int := if ended then [(last : Int), (last : Int) - 1] else [(last : Int)]
      if 3 * info.lenNoWhitespace > intMax then none
      else
        let expected := 3 * info.lenNoWhitespace / 4 - pad
        let decoded := bioRead (!info.containsNewline) src dstSize
        some ⟨if decoded.length = expected then decoded else [],
          analysed ++ scan.1 ++ looked ++ upTo src.length⟩

example : estBase64DecodeReads readBase64 (ascii "QQ==") 1 =
    some ⟨[65], [0, 1, 2, 3, 4, 3, 3, 2, 0, 1, 2, 3]⟩ := by decide

section Scan

variable {src : Bytes}

theorem scanBack_last {n : Nat} (hn : n ≤ src.length) :
    (scanBack src n).2 = (((src.take n).reverse.dropWhile isspace).length : Int) - 1 := by
  induction n with
  | zero => rfl
  | succ n ih =>
    have hlt : n < src.length := hn
    have htake : (src.take (n + 1)).reverse = src.getD n 0 :: (src.take n).reverse := by
      rw [List.take_add_one, List.reverse_append, List.getD_eq_getElem?_getD,
        List.getElem?_eq_getElem hlt]
      rfl
    rw [htake, List.dropWhile_cons, scanBack]
    split
    · exact ih (by omega)
    · simp only [List.length_cons, List.length_reverse, List.length_take]
      omega

theorem scanBack_below {n : Nat} {i : Int} (hi : i ∈ (scanBack src n).1) : i < n ∨ n = 0 := by
  induction n with
  | zero => exact Or.inr rfl
  | succ n ih =>
    apply Or.inl
    unfold scanBack at hi
    split at hi
    · cases List.mem_cons.mp hi with
      | inl hhead => omega
      | inr htail =>
        cases ih htail with
        | inl hlt => omega
        | inr hzero =>
          subst hzero
          have hfirst : i = -1 := List.mem_singleton.mp htail
          omega
    · have hfirst : i = n := List.mem_singleton.mp hi
      omega

/-- The scan stays in the string exactly when there is something for it to find. -/
theorem scanBack_inside_iff {n : Nat} (hn : n ≤ src.length) :
    (∀ i ∈ (scanBack src n).1, 0 ≤ i) ↔ ∃ c ∈ src.take n, isspace c = false := by
  induction n with
  | zero => simp [scanBack]
  | succ n ih =>
    have hlt : n < src.length := hn
    have htake : src.take (n + 1) = src.take n ++ [src.getD n 0] := by
      rw [List.take_add_one, List.getD_eq_getElem?_getD, List.getElem?_eq_getElem hlt]
      rfl
    rw [htake, scanBack]
    by_cases hspace : isspace (src.getD n 0) = true
    · rw [if_pos hspace]
      simp only [List.mem_cons, forall_eq_or_imp, List.mem_append, List.not_mem_nil, or_false,
        Int.natCast_nonneg, true_and]
      rw [ih (by omega)]
      constructor
      · intro h
        obtain ⟨c, hc, hfree⟩ := h
        exact ⟨c, Or.inl hc, hfree⟩
      · intro h
        obtain ⟨c, hc, hfree⟩ := h
        cases hc with
        | inl hfront => exact ⟨c, hfront, hfree⟩
        | inr hlast =>
          rw [hlast, hspace] at hfree
          cases hfree
    · rw [if_neg hspace]
      simp only [List.mem_singleton, forall_eq, Int.natCast_nonneg, List.mem_append, true_iff]
      exact ⟨src.getD n 0, Or.inr rfl, by simpa using hspace⟩

end Scan

section Result

variable {bioRead : BioRead} {text : Bytes} {dstSize : Nat} {d : Decoded}

/-- The padding that is counted is the one of the pure function. -/
theorem trailingPad_of_scan (src : Bytes) :
    trailingPad src =
      if (scanBack src src.length).2 < 2 then none
      else some (if src.getD (scanBack src src.length).2.toNat 0 = padding then
        if src.getD ((scanBack src src.length).2.toNat - 1) 0 = padding then 2 else 1 else 0) := by
  have hlast := @scanBack_last src _ le_rfl
  rw [List.take_length] at hlast
  have hsplit : src =
      (src.reverse.dropWhile isspace).reverse ++ (src.reverse.takeWhile isspace).reverse := by
    rw [← List.reverse_append, List.takeWhile_append_dropWhile, List.reverse_reverse]
  rw [hlast]
  unfold trailingPad
  generalize src.reverse.takeWhile isspace = spaces at hsplit
  generalize src.reverse.dropWhile isspace = front at hsplit ⊢
  subst hsplit
  rcases front with _ | ⟨last, _ | ⟨before, _ | ⟨third, rest⟩⟩⟩
  · rfl
  · rfl
  · rfl
  · have hlength : ((last :: before :: third :: rest).length : Int) - 1 =
        ((rest.length + 2 : Nat) : Int) := by
      simp only [List.length_cons]
      omega
    rw [hlength, if_neg (by omega), Int.toNat_natCast]
    simp [List.getD_eq_getElem?_getD]

theorem decodeReads_ret (h : estBase64DecodeReads bioRead text dstSize = some d) :
    d.ret = estBase64Decode bioRead text dstSize := by
  unfold estBase64DecodeReads at h
  unfold estBase64Decode
  generalize text.takeWhile (· ≠ 0) = src at h ⊢
  dsimp only at h ⊢
  rw [trailingPad_of_scan]
  generalize (if src.getD (scanBack src src.length).2.toNat 0 = padding then
    if src.getD ((scanBack src src.length).2.toNat - 1) 0 = padding then 2 else 1
    else 0) = pad at h ⊢
  change _ = if (estBase64StrAnalyze src).lenNoWhitespace > maxIn dstSize then [] else _
  generalize maxIn dstSize = most at h ⊢
  by_cases hwide : src.length > intMax ∨ most > intMax
  · rw [if_pos hwide] at h
    cases h
  · rw [if_neg hwide] at h
    by_cases hlong : (estBase64StrAnalyze src).lenNoWhitespace > most
    · rw [if_pos hlong] at h ⊢
      cases h
      rfl
    · rw [if_neg hlong] at h ⊢
      by_cases hfour : (estBase64StrAnalyze src).lenNoWhitespace % 4 ≠ 0
      · rw [if_pos hfour] at h ⊢
        cases h
        rfl
      · rw [if_neg hfour] at h ⊢
        by_cases hlast : (scanBack src src.length).2 < 2
        · rw [if_pos hlast] at h ⊢
          cases h
          rfl
        · rw [if_neg hlast] at h ⊢
          split at h
          · cases h
          · cases h
            rfl

end Result

section Inside

variable {bioRead : BioRead} {src : Bytes} {dstSize : Nat}

/-- The characters of a string that are not whitespace. -/
def unspaced (src : Bytes) : Bytes := src.filter fun c => !isspace c

theorem lenNoWhitespace_eq (src : Bytes) :
    (estBase64StrAnalyze src).lenNoWhitespace = (unspaced src).length :=
  List.countP_eq_length_filter

/-- The lengths and products of the decoder fit an integer. -/
def NoOverflow (src : Bytes) (dstSize : Nat) : Prop :=
  src.length ≤ intMax ∧ maxIn dstSize ≤ intMax ∧
    ((unspaced src).length ≤ maxIn dstSize → (unspaced src).length % 4 = 0 →
      3 * (unspaced src).length ≤ intMax)

theorem unspaced_eq_nil_iff : unspaced src = [] ↔ ¬ ∃ c ∈ src, isspace c = false := by
  unfold unspaced
  rw [List.filter_eq_nil_iff]
  simp

/-- What is not whitespace lies in front of where the scan stops. -/
theorem unspaced_length_le (src : Bytes) :
    ((unspaced src).length : Int) ≤ (scanBack src src.length).2 + 1 := by
  rw [scanBack_last le_rfl, List.take_length]
  have hdropped : (src.reverse.takeWhile isspace).filter (fun c => !isspace c) = [] := by
    apply List.filter_eq_nil_iff.mpr
    intro c hc
    simp [List.mem_takeWhile_imp hc]
  have hlength : (unspaced src).length =
      ((src.reverse.dropWhile isspace).filter fun c => !isspace c).length := by
    rw [unspaced, ← List.length_reverse, ← List.filter_reverse,
      ← List.takeWhile_append_dropWhile (p := isspace) (l := src.reverse), List.filter_append,
      hdropped, List.nil_append, List.takeWhile_append_dropWhile]
  have hle := List.length_filter_le (fun c => !isspace c) (src.reverse.dropWhile isspace)
  omega

theorem scanBack_of_unspaced_nil (h : unspaced src = []) : (scanBack src src.length).2 = -1 := by
  rw [unspaced, List.filter_eq_nil_iff] at h
  have hdrop : src.reverse.dropWhile isspace = [] := by
    apply List.dropWhile_eq_nil_iff.mpr
    intro c hc
    simpa using h c (List.mem_reverse.mp hc)
  rw [scanBack_last le_rfl, List.take_length, hdrop]
  rfl

theorem scanBack_lt (src : Bytes) : (scanBack src src.length).2 < src.length := by
  have hle := (List.dropWhile_suffix isspace (l := src.reverse)).length_le
  rw [List.length_reverse] at hle
  rw [scanBack_last le_rfl, List.take_length]
  omega

theorem mem_upTo {n : Nat} {i : Int} (hi : i ∈ upTo n) : 0 ≤ i ∧ i < n := by
  unfold upTo at hi
  obtain ⟨m, hm, rfl⟩ := List.mem_map.mp hi
  rw [List.mem_range] at hm
  constructor
  · exact Int.natCast_nonneg m
  · exact Int.ofNat_lt.mpr hm

/-- The decoder is defined exactly without an overflow, and reads in front of the string
exactly when the string has nothing but whitespace. -/
theorem decodeReads_spec (hsrc : ∀ c ∈ src, c ≠ 0) :
    (NoOverflow src dstSize → ∃ d, estBase64DecodeReads bioRead src dstSize = some d ∧
      ((∀ i ∈ d.reads, 0 ≤ i ∧ i ≤ src.length) ↔ ∃ c ∈ src, isspace c = false)) ∧
    (¬ NoOverflow src dstSize → estBase64DecodeReads bioRead src dstSize = none) := by
  unfold estBase64DecodeReads NoOverflow
  rw [takeWhile_of_free hsrc]
  dsimp only
  rw [lenNoWhitespace_eq]
  have hfound : unspaced src ≠ [] ↔ ∃ c ∈ src, isspace c = false :=
    not_iff_comm.mp unspaced_eq_nil_iff.symm
  by_cases hwide : src.length > intMax ∨ maxIn dstSize > intMax
  · rw [if_pos hwide]
    exact ⟨fun h => by omega, fun _ => rfl⟩
  · rw [if_neg hwide]
    have hanalysed : ∀ i ∈ upTo (src.length + 1), 0 ≤ i ∧ i ≤ src.length := by
      intro i hi
      have := mem_upTo hi
      omega
    by_cases hlong : (unspaced src).length > maxIn dstSize
    · rw [if_pos hlong]
      have hne : unspaced src ≠ [] := List.length_pos_iff.mp (by omega)
      exact ⟨fun _ => ⟨_, rfl, fun _ => hfound.mp hne, fun _ => hanalysed⟩, fun h => by omega⟩
    · rw [if_neg hlong]
      by_cases hfour : (unspaced src).length % 4 ≠ 0
      · rw [if_pos hfour]
        have hne : unspaced src ≠ [] := List.length_pos_iff.mp (by omega)
        exact ⟨fun _ => ⟨_, rfl, fun _ => hfound.mp hne, fun _ => hanalysed⟩, fun h => by omega⟩
      · rw [if_neg hfour]
        have hbound := unspaced_length_le src
        have hscan := @scanBack_inside_iff src _ le_rfl
        rw [List.take_length] at hscan
        by_cases hlast : (scanBack src src.length).2 < 2
        · rw [if_pos hlast]
          have hnil : ¬ ∃ c ∈ src, isspace c = false :=
            unspaced_eq_nil_iff.mp (List.length_eq_zero_iff.mp (by omega))
          refine ⟨fun _ => ⟨_, rfl, fun hall => ?_, fun h => absurd h hnil⟩, fun h => by omega⟩
          exact hscan.mp fun i hi => (hall i (List.mem_append_right _ hi)).1
        · rw [if_neg hlast]
          have hne : unspaced src ≠ [] := by
            intro hnil
            rw [scanBack_of_unspaced_nil hnil] at hlast
            omega
          by_cases hproduct : 3 * (unspaced src).length > intMax
          · rw [if_pos hproduct]
            exact ⟨fun h => by omega, fun _ => rfl⟩
          · rw [if_neg hproduct]
            refine ⟨fun _ => ⟨_, rfl, fun _ => hfound.mp hne, fun _ => ?_⟩, fun h => by omega⟩
            have hlt := scanBack_lt src
            intro i hi
            simp only [List.mem_append, or_assoc] at hi
            rcases hi with hread | hread | hread | hread
            · exact hanalysed i hread
            · have hbelow := scanBack_below hread
              have hpos := hscan.mpr (hfound.mp hne) i hread
              omega
            · split_ifs at hread
              all_goals
                simp only [List.mem_cons, List.not_mem_nil, or_false] at hread
                omega
            · have := mem_upTo hread
              omega

end Inside

section Padded

/-- The number of padding characters at the end of a text. -/
def padCount (text : Bytes) : Nat := (text.reverse.takeWhile (· = padding)).length

/-- Padded base64 without anything between its characters. -/
structure ValidBase64 (text : Bytes) : Prop where
  four : text.length % 4 = 0
  pad : padCount text ≤ 2
  body : ∀ c ∈ text.take (text.length - padCount text), c ∈ alphabet

instance (text : Bytes) : Decidable (ValidBase64 text) :=
  decidable_of_iff (text.length % 4 = 0 ∧ padCount text ≤ 2 ∧
      ∀ c ∈ text.take (text.length - padCount text), c ∈ alphabet)
    ⟨fun h => ⟨h.1, h.2.1, h.2.2⟩, fun h => ⟨h.four, h.pad, h.body⟩⟩

theorem padCount_le (text : Bytes) : padCount text ≤ text.length := by
  have hle := (List.takeWhile_prefix (· = padding) (l := text.reverse)).length_le
  rw [List.length_reverse] at hle
  exact hle

theorem take_append_padding (text : Bytes) :
    text.take (text.length - padCount text) ++ List.replicate (padCount text) padding = text := by
  have hpad : text.reverse.takeWhile (· = padding) = List.replicate (padCount text) padding := by
    apply List.eq_replicate_iff.mpr
    constructor
    · rfl
    · intro c hc
      simpa using List.mem_takeWhile_imp hc
  have hsplit := congrArg List.reverse
    (List.takeWhile_append_dropWhile (p := (· = padding)) (l := text.reverse))
  rw [List.reverse_reverse, List.reverse_append, hpad, List.reverse_replicate] at hsplit
  have hlength := congrArg List.length hsplit
  rw [List.length_append, List.length_replicate] at hlength
  have hfront := congrArg (List.take (text.length - padCount text)) hsplit
  rw [List.take_left' (by omega)] at hfront
  rw [← hfront]
  exact hsplit

theorem ne_padding_of_mem : ∀ c ∈ alphabet, c ≠ padding := by
  decide +kernel

/-- Three bytes for four characters, less the padding. -/
theorem ungroup_body_length {body : Bytes} (hbody : ∀ c ∈ body, c ∈ alphabet) {pad : Nat}
    (hpad : pad ≤ 2) (hfour : (body.length + pad) % 4 = 0) :
    (ungroup (body ++ List.replicate pad padding)).length =
      3 * (body.length + pad) / 4 - pad := by
  induction hn : body.length using Nat.strong_induction_on generalizing body with
  | h n ih =>
    subst hn
    -- the recursion of the decoder takes four characters at a time
    rcases body with _ | ⟨a, _ | ⟨b, _ | ⟨c, _ | ⟨d, rest⟩⟩⟩⟩
    · have hzero : pad = 0 := by
        simp only [List.length_nil] at hfour
        omega
      subst hzero
      rfl
    · simp only [List.length_cons, List.length_nil] at hfour
      omega
    · have htwo : pad = 2 := by
        simp only [List.length_cons, List.length_nil] at hfour
        omega
      subst htwo
      simp [ungroup, List.replicate]
    · have hone : pad = 1 := by
        simp only [List.length_cons, List.length_nil] at hfour
        omega
      subst hone
      have hc := ne_padding_of_mem c (hbody c (by simp))
      simp [ungroup, hc]
    · have hc := ne_padding_of_mem c (hbody c (by simp))
      have hd := ne_padding_of_mem d (hbody d (by simp))
      have hrest : (rest.length + pad) % 4 = 0 := by
        simp only [List.length_cons] at hfour
        omega
      have hlength := ih rest.length (by simp only [List.length_cons]; omega)
        (fun x hx => hbody x (by simp [hx])) hrest rfl
      have hstep : (ungroup (a :: b :: c :: d :: rest ++ List.replicate pad padding)).length =
          3 + (ungroup (rest ++ List.replicate pad padding)).length := by
        simp only [List.cons_append, ungroup, if_neg hc, if_neg hd, List.length_cons]
        omega
      rw [hstep, hlength]
      simp only [List.length_cons]
      omega

theorem ungroup_length {text : Bytes} (h : ValidBase64 text) :
    (ungroup text).length = 3 * text.length / 4 - padCount text := by
  have hle := padCount_le text
  have hlength : (text.take (text.length - padCount text)).length + padCount text =
      text.length := by
    rw [List.length_take]
    omega
  have hungroup := ungroup_body_length h.body h.pad (by rw [hlength]; exact h.four)
  rw [take_append_padding, hlength] at hungroup
  exact hungroup

end Padded

section Exact

/-- What is relied on of OpenSSL's filter. A read delivers the front of what a run of the
characters stands for that is padded base64; lines of 64 characters are read back, and
without the expectation of lines a single one with or without its line feed. -/
structure FollowsModes (bioRead : BioRead) : Prop where
  delivers : ∀ noNl src max, ∃ piece, List.Sublist piece (unspaced src) ∧ ValidBase64 piece ∧
    bioRead noNl src max = (ungroup piece).take max
  lines : ∀ x max, x.length ≤ max → bioRead false (base64Text true x) max = x
  line : ∀ x max, x.length ≤ max → bioRead true (groups x) max = x
  lineFeed : ∀ x max, x.length ≤ max → bioRead true (groups x ++ [newline]) max = x

theorem trailingPad_le_padCount {src : Bytes} {pad : Nat} (h : trailingPad src = some pad) :
    pad ≤ padCount (unspaced src) := by
  unfold trailingPad at h
  split at h
  · rename_i last before third rest hlast
    unfold padCount unspaced
    rw [reverse_filter_of_last hlast]
    cases h
    split
    · rename_i hpadding
      split
      · rename_i hbefore
        subst hpadding hbefore
        simp [isspace, padding]
      · subst hpadding
        simp
    · exact Nat.zero_le _
  · cases h

variable {bioRead : BioRead}

/-- A decoding that does not fail is what the filter delivers. -/
theorem decode_delivered {src : Bytes} (hsrc : ∀ c ∈ src, c ≠ 0) {dstSize : Nat}
    (hne : estBase64Decode bioRead src dstSize ≠ []) :
    ∃ noNl pad, trailingPad src = some pad ∧ (unspaced src).length % 4 = 0 ∧
      (bioRead noNl src dstSize).length = 3 * (unspaced src).length / 4 - pad ∧
      estBase64Decode bioRead src dstSize = bioRead noNl src dstSize := by
  revert hne
  unfold estBase64Decode
  rw [takeWhile_of_free hsrc]
  dsimp only
  rw [lenNoWhitespace_eq]
  have hmost : (if dstSize % 3 ≠ 0 then (dstSize / 3 + 1) * 4 else dstSize / 3 * 4) =
      maxIn dstSize := rfl
  rw [hmost]
  by_cases hlong : (unspaced src).length > maxIn dstSize
  · rw [if_pos hlong]
    exact fun h => absurd rfl h
  · by_cases hfour : (unspaced src).length % 4 ≠ 0
    · rw [if_neg hlong, if_pos hfour]
      exact fun h => absurd rfl h
    · rw [if_neg hlong, if_neg hfour]
      cases trailingPad src with
      | none => exact fun h => absurd rfl h
      | some pad =>
        dsimp only
        split
        · rename_i hlength
          exact fun _ => ⟨_, pad, rfl, not_not.mp hfour, hlength, rfl⟩
        · exact fun h => absurd rfl h

/-- A length that agrees with the number of characters leaves out none of them. -/
theorem decode_exact (hmodes : FollowsModes bioRead) {src : Bytes} (hsrc : ∀ c ∈ src, c ≠ 0)
    {dstSize : Nat} (hne : estBase64Decode bioRead src dstSize ≠ []) :
    ValidBase64 (unspaced src) ∧
      (estBase64Decode bioRead src dstSize).length =
        3 * (unspaced src).length / 4 - padCount (unspaced src) ∧
      (estBase64Decode bioRead src dstSize).length ≤ dstSize := by
  obtain ⟨noNl, pad, hpad, hfour, hlength, hdecode⟩ := decode_delivered hsrc hne
  have htwo := trailingPad_le hpad
  have hcount := trailingPad_le_padCount hpad
  obtain ⟨piece, hsub, hvalid, hread⟩ := hmodes.delivers noNl src dstSize
  have hpiece := ungroup_length hvalid
  have hle := hsub.length_le
  have hpadded := hvalid.four
  have hpos : 0 < (bioRead noNl src dstSize).length := by
    rw [← hdecode]
    exact List.length_pos_iff.mpr hne
  rw [hread, List.length_take] at hlength hpos
  have hall : piece.length = (unspaced src).length := by omega
  have heq : piece = unspaced src := hsub.eq_of_length hall
  subst heq
  rw [hdecode, hread, List.length_take]
  exact ⟨hvalid, by omega, by omega⟩

end Exact

section Lines

theorem groups_append {front : Bytes} (hfront : front.length % 3 = 0) (rest : Bytes) :
    groups (front ++ rest) = groups front ++ groups rest := by
  fun_induction groups front with
  | case1 => rfl
  | case2 a => simp at hfront
  | case3 a b => simp at hfront
  | case4 a b c more ih =>
    have hmore : more.length % 3 = 0 := by
      simp only [List.length_cons] at hfront
      omega
    simp only [List.cons_append, groups, ih hmore]

theorem unspaced_append (front rest : Bytes) :
    unspaced (front ++ rest) = unspaced front ++ unspaced rest := List.filter_append front rest

theorem unspaced_groups (x : Bytes) : unspaced (groups x) = groups x := by
  apply List.filter_eq_self.mpr
  intro c hc
  rw [(groups_printable x c hc).2.1]
  rfl

theorem unspaced_newline (rest : Bytes) : unspaced (newline :: rest) = unspaced rest := rfl

/-- The lines of a text are its characters in order. -/
theorem unspaced_lines {fuel : Nat} {x : Bytes} (h : x.length ≤ fuel) :
    unspaced (lines fuel x) = groups x := by
  induction fuel generalizing x with
  | zero =>
    have hx : x = [] := List.length_eq_zero_iff.mp (Nat.le_zero.mp h)
    subst hx
    rfl
  | succ fuel ih =>
    cases x with
    | nil => rfl
    | cons a rest =>
      have hdrop : ((a :: rest).drop 48).length ≤ fuel := by
        rw [List.length_drop]
        omega
      rw [lines, unspaced_append, unspaced_newline, ih hdrop, unspaced_groups]
      by_cases hlong : 48 ≤ (a :: rest).length
      · rw [← groups_append, List.take_append_drop]
        rw [List.length_take]
        omega
      · rw [List.take_of_length_le (by omega), List.drop_of_length_le (by omega), groups,
          List.append_nil]
      · simp

theorem lines_free {fuel : Nat} {x : Bytes} : ∀ c ∈ lines fuel x, c ≠ 0 := by
  induction fuel generalizing x with
  | zero => simp [lines]
  | succ fuel ih =>
    cases x with
    | nil => simp [lines]
    | cons a rest =>
      intro c hc
      rw [lines] at hc
      · cases List.mem_append.mp hc with
        | inl hfront => exact (groups_printable _ c hfront).1
        | inr hback =>
          cases List.mem_cons.mp hback with
          | inl hline =>
            rw [hline]
            decide
          | inr hrest => exact ih c hrest
      · simp

theorem trailingPad_append {front rest : Bytes} {pad : Nat} (h : trailingPad rest = some pad) :
    trailingPad (front ++ rest) = some pad := by
  unfold trailingPad at h ⊢
  rw [List.reverse_append, List.dropWhile_append]
  split at h
  · rename_i last before third more hlast
    rw [hlast]
    exact h
  · cases h

theorem trailingPad_lineFeed (text : Bytes) : trailingPad (text ++ [newline]) = trailingPad text := by
  unfold trailingPad
  rw [List.reverse_append]
  rfl

theorem trailingPad_lines {fuel : Nat} {x : Bytes} (hne : x ≠ []) (h : x.length ≤ fuel) :
    trailingPad (lines fuel x) = some ((3 - x.length % 3) % 3) := by
  induction fuel generalizing x with
  | zero => exact absurd (List.length_eq_zero_iff.mp (Nat.le_zero.mp h)) hne
  | succ fuel ih =>
    rw [lines]
    · by_cases hlong : 48 < x.length
      · have hdrop : x.drop 48 ≠ [] := by
          apply List.ne_nil_of_length_pos
          rw [List.length_drop]
          omega
        have hrest := ih hdrop (by rw [List.length_drop]; omega)
        have hmod : (x.drop 48).length % 3 = x.length % 3 := by
          rw [List.length_drop]
          omega
        rw [hmod] at hrest
        apply trailingPad_append
        exact @trailingPad_append [newline] _ _ hrest
      · have hnil : lines fuel (x.drop 48) = [] := by
          rw [List.drop_of_length_le (by omega)]
          cases fuel with
          | zero => rfl
          | succ fuel => rfl
        rw [hnil, trailingPad_lineFeed, List.take_of_length_le (by omega)]
        exact trailingPad_groups hne
    · exact hne

end Lines

section RoundTrip

variable {bioRead : BioRead}

/-- The first line feed of the lines is the end of the first of them. -/
theorem containsNewline_lines {fuel : Nat} {x : Bytes} (hne : x ≠ []) (h : x.length ≤ fuel) :
    (estBase64StrAnalyze (lines fuel x)).containsNewline = decide (48 < x.length) := by
  cases fuel with
  | zero => exact absurd (List.length_eq_zero_iff.mp (Nat.le_zero.mp h)) hne
  | succ fuel =>
    have hnone : (groups (x.take 48)).findIdx? (· = newline) = none := by
      apply List.findIdx?_eq_none_iff.mpr
      intro c hc
      simp [(groups_printable _ c hc).2.2]
    have hfind : (lines (fuel + 1) x).findIdx? (· = newline) = some (groups (x.take 48)).length := by
      rw [lines]
      · rw [List.findIdx?_append, hnone, List.findIdx?_cons]
        simp
      · exact hne
    have hlength : (lines (fuel + 1) x).length =
        (groups (x.take 48)).length + 1 + (lines fuel (x.drop 48)).length := by
      rw [lines]
      · rw [List.length_append, List.length_cons]
        omega
      · exact hne
    have hrest : (lines fuel (x.drop 48)).length = 0 ↔ ¬ 48 < x.length := by
      by_cases hlong : 48 < x.length
      · have hunspaced := @unspaced_lines fuel (x.drop 48) (by
          rw [List.length_drop]
          omega)
        have hle := List.length_filter_le (fun c => !isspace c) (lines fuel (x.drop 48))
        change (unspaced (lines fuel (x.drop 48))).length ≤ _ at hle
        rw [hunspaced, groups_length, List.length_drop] at hle
        simp only [hlong, not_true_eq_false, iff_false]
        omega
      · rw [List.drop_of_length_le (by omega)]
        simp only [hlong, not_false_eq_true, iff_true]
        cases fuel with
        | zero => rfl
        | succ fuel => rfl
    unfold estBase64StrAnalyze
    dsimp only
    rw [hfind]
    dsimp only
    rw [hlength]
    by_cases hlong : 48 < x.length
    · have hpos : (lines fuel (x.drop 48)).length ≠ 0 := fun h => hrest.mp h hlong
      simp only [hlong, decide_true, decide_eq_true_eq]
      omega
    · have hzero := hrest.mpr hlong
      rw [hzero]
      simp [hlong]

theorem decode_lines (hmodes : FollowsModes bioRead) {x : Bytes} (hne : x ≠ []) {dstSize : Nat}
    (hfits : x.length ≤ dstSize) :
    estBase64Decode bioRead (base64Text true x) dstSize = x := by
  have htext : base64Text true x = lines x.length x := rfl
  have hread : bioRead (!(estBase64StrAnalyze (lines x.length x)).containsNewline)
      (lines x.length x) dstSize = x := by
    rw [containsNewline_lines hne le_rfl]
    by_cases hlong : 48 < x.length
    · rw [decide_eq_true hlong]
      exact hmodes.lines x dstSize hfits
    · rw [decide_eq_false hlong]
      have hone : lines x.length x = groups x ++ [newline] := by
        cases x with
        | nil => exact absurd rfl hne
        | cons a rest =>
          rw [List.length_cons, lines, List.take_of_length_le (by omega),
            List.drop_of_length_le (by omega)]
          · cases rest.length with
            | zero => rfl
            | succ n => rfl
          · simp
      rw [hone]
      exact hmodes.lineFeed x dstSize hfits
  have hlen := groups_length x
  have hpos : 0 < x.length := List.length_pos_iff.mpr hne
  rw [htext]
  unfold estBase64Decode
  rw [takeWhile_of_free lines_free]
  dsimp only
  rw [lenNoWhitespace_eq, unspaced_lines le_rfl, trailingPad_lines hne le_rfl, hread]
  dsimp only
  rw [if_neg (by split <;> omega), if_neg (by omega), if_pos (by omega)]

/-- Both kinds of text are read back. -/
theorem decode_base64Text (hmodes : FollowsModes bioRead) {x : Bytes} (hne : x ≠ []) (nl : Bool)
    {dstSize : Nat} (hfits : x.length ≤ dstSize) :
    estBase64Decode bioRead (base64Text nl x) dstSize = x := by
  cases nl with
  | false => exact estBase64Decode_of_le (fun src max h => hmodes.line src max h) hne hfits
  | true => exact decode_lines hmodes hne hfits

theorem base64Text_free (nl : Bool) (x : Bytes) : ∀ c ∈ base64Text nl x, c ≠ 0 := by
  cases nl with
  | false => exact fun c hc => (groups_printable x c hc).1
  | true => exact lines_free

theorem unspaced_base64Text (nl : Bool) (x : Bytes) : unspaced (base64Text nl x) = groups x := by
  cases nl with
  | false => exact unspaced_groups x
  | true => exact unspaced_lines le_rfl

theorem takeWhile_string {src : Bytes} (hsrc : ∀ c ∈ src, c ≠ 0) (behind : Bytes) :
    (src ++ 0 :: behind).takeWhile (· ≠ 0) = src := by
  rw [List.takeWhile_append_of_pos, List.takeWhile_cons]
  · simp
  · intro c hc
    simp [hsrc c hc]

/-- Only the string matters, and not the memory behind it. -/
theorem decodeReads_string {src : Bytes} (hsrc : ∀ c ∈ src, c ≠ 0) (behind : Bytes) (dstSize : Nat) :
    estBase64DecodeReads bioRead (src ++ 0 :: behind) dstSize =
      estBase64DecodeReads bioRead src dstSize := by
  unfold estBase64DecodeReads
  rw [takeWhile_string hsrc, takeWhile_of_free hsrc]

end RoundTrip

section Exactness

/-- What a caller relies on. Only characters of the string and its terminator are read, and
data comes only out of padded base64, in the length that its characters stand for. -/
structure DecodesExactly (src : Bytes) (dstSize : Nat) (d : Decoded) : Prop where
  reads : ∀ i ∈ d.reads, 0 ≤ i ∧ i ≤ src.length
  valid : d.ret ≠ [] → ValidBase64 (unspaced src)
  length : d.ret ≠ [] →
    d.ret.length = 3 * (unspaced src).length / 4 - padCount (unspaced src)
  fits : d.ret.length ≤ dstSize

variable {bioRead : BioRead}

theorem decodesExactly_iff (hmodes : FollowsModes bioRead) {src : Bytes}
    (hsrc : ∀ c ∈ src, c ≠ 0) (dstSize : Nat) :
    (∃ d, estBase64DecodeReads bioRead src dstSize = some d ∧ DecodesExactly src dstSize d) ↔
      NoOverflow src dstSize ∧ ∃ c ∈ src, isspace c = false := by
  have hspec := @decodeReads_spec bioRead _ dstSize hsrc
  by_cases hint : NoOverflow src dstSize
  · obtain ⟨d, hd, hinside⟩ := hspec.1 hint
    have hret := decodeReads_ret hd
    simp only [hd, Option.some.injEq, exists_eq_left', hint, true_and]
    rw [← hinside]
    constructor
    · exact DecodesExactly.reads
    · intro hreads
      by_cases hne : d.ret = []
      · exact ⟨hreads, fun h => absurd hne h, fun h => absurd hne h, by simp [hne]⟩
      · rw [hret] at hne
        have hexact := decode_exact hmodes hsrc hne
        rw [← hret] at hexact
        exact ⟨hreads, fun _ => hexact.1, fun _ => hexact.2.1, hexact.2.2⟩
  · rw [hspec.2 hint]
    simp [hint]

theorem noOverflow_base64Text {x : Bytes} {nl : Bool} {maxDstLen dstSize : Nat}
    (hfits : encodedLength x.length nl < maxDstLen) (hmax : maxDstLen * 3 ≤ intMax) :
    NoOverflow (base64Text nl x) dstSize ↔ maxIn dstSize ≤ intMax := by
  unfold NoOverflow
  rw [unspaced_base64Text, base64Text_length_eq, groups_length]
  unfold encodedLength at hfits ⊢
  constructor
  · exact fun h => h.2.1
  · intro h
    exact ⟨by omega, h, fun _ _ => by omega⟩

/-- A filter that takes a text all at once: valid characters in either mode, and nothing
where they are not. -/
def readValid : BioRead := fun _ src max =>
  if ValidBase64 (unspaced src) then (ungroup (unspaced src)).take max else []

theorem groups_split (x : Bytes) : ∃ body, groups x =
    body ++ List.replicate ((3 - x.length % 3) % 3) padding ∧ ∀ c ∈ body, c ∈ alphabet := by
  fun_induction groups x with
  | case1 => exact ⟨[], rfl, by simp⟩
  | case2 a => exact ⟨[_, _], rfl, by simp [symbol_mem]⟩
  | case3 a b => exact ⟨[_, _, _], rfl, by simp [symbol_mem]⟩
  | case4 a b c rest ih =>
    obtain ⟨body, hbody, hall⟩ := ih
    have hmod : (a :: b :: c :: rest).length % 3 = rest.length % 3 := by
      simp only [List.length_cons]
      omega
    rw [hmod, hbody]
    refine ⟨_ :: _ :: _ :: _ :: body, rfl, ?_⟩
    simp only [List.mem_cons, forall_eq_or_imp, symbol_mem, true_and]
    exact hall

theorem padCount_split {body : Bytes} (hbody : ∀ c ∈ body, c ∈ alphabet) (pad : Nat) :
    padCount (body ++ List.replicate pad padding) = pad := by
  have hstop : body.reverse.takeWhile (· = padding) = [] := by
    cases hrev : body.reverse with
    | nil => rfl
    | cons c rest =>
      have hc : c ∈ body := List.mem_reverse.mp (by simp [hrev])
      simp [ne_padding_of_mem c (hbody c hc)]
  unfold padCount
  rw [List.reverse_append, List.reverse_replicate, List.takeWhile_append_of_pos, hstop]
  · simp
  · intro c hc
    simp [List.eq_of_mem_replicate hc]

theorem validBase64_groups (x : Bytes) : ValidBase64 (groups x) := by
  have hlength := groups_length x
  obtain ⟨body, hsplit, hbody⟩ := groups_split x
  have hpad := padCount_split hbody ((3 - x.length % 3) % 3)
  rw [← hsplit] at hpad
  constructor
  · omega
  · omega
  · rw [hpad]
    have htotal := congrArg List.length hsplit
    rw [List.length_append, List.length_replicate] at htotal
    have htake := congrArg (List.take ((groups x).length - (3 - x.length % 3) % 3)) hsplit
    rw [List.take_left' (by omega)] at htake
    rw [htake]
    exact hbody

theorem readValid_followsModes : FollowsModes readValid := by
  have hread {noNl : Bool} {x text : Bytes} (htext : unspaced text = groups x) {max : Nat}
      (hmax : x.length ≤ max) : readValid noNl text max = x := by
    unfold readValid
    rw [htext, if_pos (validBase64_groups x), ungroup_groups, List.take_of_length_le hmax]
  constructor
  · intro noNl src max
    by_cases hvalid : ValidBase64 (unspaced src)
    · exact ⟨unspaced src, List.Sublist.refl _, hvalid, if_pos hvalid⟩
    · exact ⟨[], List.nil_sublist _, by decide, (if_neg hvalid).trans List.take_nil.symm⟩
  · intro x max hmax
    exact hread (unspaced_base64Text true x) hmax
  · intro x max hmax
    exact hread (unspaced_groups x) hmax
  · intro x max hmax
    have hfeed : unspaced (groups x ++ [newline]) = groups x := by
      rw [unspaced_append, unspaced_newline, unspaced_groups]
      exact List.append_nil _
    exact hread hfeed hmax

end Exactness

end LibEst.Base64Reads
