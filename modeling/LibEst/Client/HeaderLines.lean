import LibEst.Client.Http

/-! The head of an answer line by line: where a line ends, where the headers end,
what one header line is cut into, and how the answer gets into the buffer. -/
namespace LibEst.Client.HeaderLines

open LibEst.Basic LibEst.Base64 LibEst.Lib.ByteString LibEst.SafeStr
open LibEst.Server.AuthHeader LibEst.Client.Http

section Search

theorem strstr_skip {c : UInt8} {pattern line : Bytes} (h : c ∉ line) (text : Bytes) :
    strstr (c :: pattern) (line ++ text) = strstr (c :: pattern) text := by
  induction line with
  | nil => rfl
  | cons d line ih =>
    have hne : ¬ (c == d) = true := by
      rw [beq_iff_eq]
      rintro rfl
      exact h (by simp)
    rw [List.cons_append, strstr, List.isPrefixOf, if_neg (by simp [hne]),
      ih fun hmem => h (by simp [hmem])]

theorem strstr_none {c : UInt8} {pattern text : Bytes} (h : c ∉ text) :
    strstr (c :: pattern) text = none := by
  have hskip : strstr (c :: pattern) (text ++ []) = strstr (c :: pattern) [] := strstr_skip h []
  rw [List.append_nil] at hskip
  rw [hskip]
  rfl

/-- A line end that another line follows is not the end of the headers. -/
theorem strstr_line {line : Bytes} (h : (13 : UInt8) ∉ line) {text : Bytes} {c : UInt8}
    (htext : text.head? = some c) (hc : c ≠ 13) :
    strstr headerDelimiter (line ++ 13 :: 10 :: text) = strstr headerDelimiter text := by
  cases text with
  | nil => cases htext
  | cons d rest =>
    cases htext
    have hne : ¬ ((13 : UInt8) == c) = true := by
      rw [beq_iff_eq]
      exact fun h => hc h.symm
    rw [headerDelimiter, strstr_skip h, strstr, if_neg (by simp [List.isPrefixOf, hne]), strstr,
      if_neg (by simp [List.isPrefixOf])]

theorem strstr_lastLine {line : Bytes} (h : (13 : UInt8) ∉ line) (rest : Bytes) :
    strstr headerDelimiter (line ++ (headerDelimiter ++ rest)) = some (headerDelimiter ++ rest) := by
  rw [headerDelimiter, strstr_skip h]
  rfl

end Search

section Line

theorem dropWhile_append_stop {p : UInt8 → Bool} {rest : Bytes} (h : rest.dropWhile p = rest)
    (text : Bytes) : (text ++ rest).dropWhile p = text.dropWhile p ++ rest := by
  rw [List.dropWhile_append]
  by_cases hempty : (text.dropWhile p).isEmpty
  · rw [if_pos hempty, h, List.isEmpty_iff.mp hempty, List.nil_append]
  · rw [if_neg hempty]

theorem skip_line {value : Bytes} (hline : ∀ c ∈ value, c ∉ lineEnd) (hzero : (0 : UInt8) ∉ value)
    (rest : Bytes) :
    skip lineEnd (value ++ 13 :: rest) = (value, rest.dropWhile (· ∈ lineEnd)) :=
  skipQuoted_plain (by decide) hline hzero rest

/-- The value of a header begins behind the spaces that follow the colon. -/
theorem parseHeader_field {name text : Bytes} (hcolon : (58 : UInt8) ∉ name)
    (hname : (0 : UInt8) ∉ name) (hline : ∀ c ∈ text, c ∉ lineEnd) (htext : (0 : UInt8) ∉ text)
    (rest : Bytes) :
    parseHeader (name ++ 58 :: (text ++ 13 :: rest)) =
      (⟨name, text.dropWhile (· = 32)⟩, rest.dropWhile (· ∈ lineEnd)) := by
  have hdelimiter : ∀ c ∈ name, c ∉ ascii ":" := by
    intro c hc hmem
    rw [show ascii ":" = [58] from by decide, List.mem_singleton] at hmem
    exact hcolon (hmem ▸ hc)
  have hspaces : (text ++ 13 :: rest).dropWhile (· ∈ ascii " ") =
      text.dropWhile (· = 32) ++ 13 :: rest := by
    simp only [show ascii " " = [32] from by decide, List.mem_singleton]
    exact dropWhile_append_stop (List.dropWhile_cons_of_neg (by decide)) text
  have hvalue {c : UInt8} (hc : c ∈ text.dropWhile (· = 32)) : c ∈ text :=
    (List.dropWhile_sublist _).mem hc
  unfold parseHeader
  rw [skipQuoted_plain (by decide) hdelimiter hname, hspaces]
  dsimp only
  rw [skip_line (fun c hc => hline c (hvalue hc)) fun hmem => htext (hvalue hmem)]

end Line

section Reading

/-- However an answer is cut into reads, the client has it as a whole, also where
it just fills the buffer. -/
theorem estIoReadRaw_chunks {chunks : List Bytes} (hne : ∀ chunk ∈ chunks, chunk ≠ []) (raw : Bytes)
    (hsize : raw.length + chunks.flatten.length ≤ estCaMax) :
    estIoReadRaw raw (chunks.map some) = .ok (raw ++ chunks.flatten) := by
  induction chunks generalizing raw with
  | nil => rw [List.map_nil, estIoReadRaw, List.flatten_nil, List.append_nil]
  | cons chunk chunks ih =>
    cases chunk with
    | nil => exact absurd rfl (hne [] (by simp))
    | cons c chunk =>
      rw [List.flatten_cons, List.length_append] at hsize
      rw [List.map_cons, estIoReadRaw]
      by_cases hroom : (c :: chunk).length < estCaMax - raw.length
      · rw [if_pos hroom, ih (fun d hd => hne d (by simp [hd])) _ (by
          rw [List.length_append]
          omega), List.flatten_cons, List.append_assoc]
      · have hlast : chunks = [] := by
          cases chunks with
          | nil => rfl
          | cons d chunks =>
            have hpos := List.length_pos_iff.mpr (hne d (by simp))
            rw [List.flatten_cons, List.length_append] at hsize
            omega
        have hfits : ¬ (estCaMax - raw.length < (c :: chunk).length ∨ sslPeek [] = true) := by
          rintro (hmore | hpeek)
          · omega
          · cases hpeek
        rw [hlast, List.map_nil, if_neg hroom, if_neg hfits, List.flatten_cons, List.flatten_nil,
          List.append_nil]

end Reading

end LibEst.Client.HeaderLines
