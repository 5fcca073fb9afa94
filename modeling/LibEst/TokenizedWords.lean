import LibEst.Tokenizer

/-! The words that the tokenizer finds, in terms of the text: where a word ends, which
quote characters it loses, and why a loop of calls comes to an end. -/
namespace LibEst.TokenizedWords

open LibEst.Lib.ByteString LibEst.Tokenizer
open LibEst.Server.AuthHeader hiding skipQuoted

section Text

variable (delimiters whitespace : CharSet) (quotechar : UInt8)

/-- A delimiter that the quote character does not stand before. -/
def Unquoted (text : Bytes) (i : Nat) : Prop :=
  (∃ d, text[i]? = some d ∧ d ∈ delimiters.chars) ∧
    ¬ (0 < i ∧ text[i - 1]? = some quotechar)

/-- The first such delimiter, or the end of the text. -/
structure FirstUnquoted (text : Bytes) (stop : Nat) : Prop where
  le : stop ≤ text.length
  before : ∀ i < stop, ¬ Unquoted delimiters quotechar text i
  found : stop < text.length → Unquoted delimiters quotechar text stop

/-- Without the quote characters before delimiters; `atEnd` says whether one at the end
goes too. -/
def dropQuotes (atEnd : Bool) : Bytes → Bytes
  | [] => []
  | c :: rest =>
      let quotes :=
        match rest with
        | [] => atEnd
        | d :: _ => decide (d ∈ delimiters.chars)
      if c = quotechar ∧ quotes = true then dropQuotes atEnd rest
      else c :: dropQuotes atEnd rest

variable {delimiters whitespace quotechar}

theorem unquoted_next (pre : Bytes) (c : UInt8) (rest : Bytes) :
    Unquoted delimiters quotechar (pre ++ c :: rest) pre.length ↔
      c ∈ delimiters.chars ∧ pre.getLast? ≠ some quotechar := by
  have hcell : (pre ++ c :: rest)[pre.length]? = some c := by simp
  have hbefore : (0 < pre.length ∧ (pre ++ c :: rest)[pre.length - 1]? = some quotechar) ↔
      pre.getLast? = some quotechar := by
    rw [List.getLast?_eq_getElem?]
    constructor
    · intro h
      rw [List.getElem?_append_left (by omega)] at h
      exact h.2
    · intro h
      have hlt := (List.getElem?_eq_some_iff.mp h).1
      exact ⟨by omega, by rw [List.getElem?_append_left (by omega)]; exact h⟩
  unfold Unquoted
  rw [hcell, hbefore]
  simp

theorem dropQuotes_nil (atEnd : Bool) : dropQuotes delimiters quotechar atEnd [] = [] := rfl

theorem dropQuotes_last (atEnd : Bool) (c : UInt8) :
    dropQuotes delimiters quotechar atEnd [c] =
      if c = quotechar ∧ atEnd = true then [] else [c] := rfl

theorem dropQuotes_more (atEnd : Bool) (c d : UInt8) (rest : Bytes) :
    dropQuotes delimiters quotechar atEnd (c :: d :: rest) =
      if c = quotechar ∧ decide (d ∈ delimiters.chars) = true then
        dropQuotes delimiters quotechar atEnd (d :: rest)
      else c :: dropQuotes delimiters quotechar atEnd (d :: rest) := rfl

theorem dropQuotes_pair (prev : Option UInt8) (c : UInt8) (rest : Bytes) :
    dropQuotes delimiters quotechar true (prev.toList ++ c :: rest) =
      (if c ∈ delimiters.chars ∧ prev = some quotechar then [] else prev.toList) ++
        dropQuotes delimiters quotechar true (c :: rest) := by
  cases prev with
  | none => simp
  | some x =>
    rw [Option.toList_some, List.singleton_append, dropQuotes_more]
    by_cases hx : x = quotechar
    · by_cases hc : c ∈ delimiters.chars
      · simp [hx, hc]
      · simp [hx, hc]
    · simp [hx]

/-- The scan from a character on, with the word so far but for its last character. -/
theorem scanWord_from (rest pre done : Bytes) (hdone : pre = [] → done = []) :
    ∃ n ≤ rest.length,
      (∀ i < n, ¬ Unquoted delimiters quotechar (pre ++ rest) (pre.length + i)) ∧
      (n < rest.length → Unquoted delimiters quotechar (pre ++ rest) (pre.length + n)) ∧
      scanWord delimiters.chars quotechar (done ++ pre.getLast?.toList) rest =
        (done ++ dropQuotes delimiters quotechar true (pre.getLast?.toList ++ rest.take n),
          rest.drop n) := by
  have hlast : (done ++ pre.getLast?.toList).getLast? = pre.getLast? := by
    cases hpre : pre.getLast? with
    | none => rw [hdone (List.getLast?_eq_none_iff.mp hpre)]; rfl
    | some x => simp
  induction rest generalizing pre done with
  | nil =>
    refine ⟨0, Nat.le_refl _, fun i hi => absurd hi (Nat.not_lt_zero i), by simp, ?_⟩
    rw [scanWord, hlast]
    cases hpre : pre.getLast? with
    | none => simp [hdone (List.getLast?_eq_none_iff.mp hpre), dropQuotes_nil]
    | some x =>
      by_cases hx : x = quotechar
      · simp [hx, dropQuotes_last]
      · simp [hx, dropQuotes_last]
  | cons c rest ih =>
    have hunquoted := @unquoted_next delimiters quotechar pre c rest
    have hshift (i : Nat) : Unquoted delimiters quotechar (pre ++ c :: rest) (pre.length + (i + 1)) ↔
        Unquoted delimiters quotechar ((pre ++ [c]) ++ rest) ((pre ++ [c]).length + i) := by
      rw [List.append_assoc, List.length_append, List.length_singleton, Nat.add_assoc,
        Nat.add_comm 1 i]
      rfl
    have hgoes (done' : Bytes) (hnot : ¬ Unquoted delimiters quotechar (pre ++ c :: rest) pre.length)
        (hscan : scanWord delimiters.chars quotechar (done ++ pre.getLast?.toList) (c :: rest) =
          scanWord delimiters.chars quotechar (done' ++ [c]) rest)
        (hdrop : ∀ more, done ++ dropQuotes delimiters quotechar true
            (pre.getLast?.toList ++ c :: more) =
          done' ++ dropQuotes delimiters quotechar true (c :: more)) :
        ∃ n ≤ (c :: rest).length,
          (∀ i < n, ¬ Unquoted delimiters quotechar (pre ++ c :: rest) (pre.length + i)) ∧
          (n < (c :: rest).length →
            Unquoted delimiters quotechar (pre ++ c :: rest) (pre.length + n)) ∧
          scanWord delimiters.chars quotechar (done ++ pre.getLast?.toList) (c :: rest) =
            (done ++ dropQuotes delimiters quotechar true
              (pre.getLast?.toList ++ (c :: rest).take n), (c :: rest).drop n) := by
      obtain ⟨n, hle, hbefore, hfound, hrest⟩ := ih (pre ++ [c]) done' (by simp) (by simp)
      refine ⟨n + 1, Nat.succ_le_succ hle, ?_, ?_, ?_⟩
      · intro i hi
        cases i with
        | zero => exact hnot
        | succ i => exact (hshift i).not.mpr (hbefore i (Nat.lt_of_succ_lt_succ hi))
      · exact fun hn => (hshift n).mpr (hfound (Nat.lt_of_succ_lt_succ hn))
      · rw [List.getLast?_concat] at hrest
        rw [hscan, List.take_succ_cons, hdrop]
        exact hrest
    by_cases hc : c ∈ delimiters.chars
    · by_cases hq : pre.getLast? = some quotechar
      · apply hgoes done
        · exact fun h => (hunquoted.mp h).2 hq
        · rw [scanWord, if_pos hc, hlast, if_pos hq, hq, Option.toList_some, List.dropLast_concat]
        · intro more
          rw [dropQuotes_pair, if_pos ⟨hc, hq⟩, List.nil_append]
      · refine ⟨0, Nat.zero_le _, fun i hi => absurd hi (Nat.not_lt_zero i),
          fun _ => hunquoted.mpr ⟨hc, hq⟩, ?_⟩
        rw [scanWord, if_pos hc, hlast, if_neg hq, List.take_zero, List.append_nil, List.drop_zero]
        cases hpre : pre.getLast? with
        | none => simp [dropQuotes_nil]
        | some x =>
          rw [hpre] at hq
          have hx : x ≠ quotechar := fun h => hq (congrArg some h)
          simp [dropQuotes_last, hx]
    · apply hgoes (done ++ pre.getLast?.toList)
      · exact fun h => hc (hunquoted.mp h).1
      · rw [scanWord, if_neg hc]
      · intro more
        rw [dropQuotes_pair, if_neg fun h => hc h.1, List.append_assoc]

/-- The scan of a text stops at the first unquoted delimiter. -/
theorem scanWord_first (text : Bytes) :
    ∃ stop, FirstUnquoted delimiters quotechar text stop ∧
      scanWord delimiters.chars quotechar [] text =
        (dropQuotes delimiters quotechar true (text.take stop), text.drop stop) := by
  obtain ⟨n, hle, hbefore, hfound, hscan⟩ :=
    @scanWord_from delimiters quotechar text [] [] fun _ => rfl
  refine ⟨n, ⟨hle, ?_, ?_⟩, hscan⟩
  · simpa using hbefore
  · simpa using hfound

end Text

section Calls

variable (delimiters whitespace : CharSet) (quotechar : UInt8)

/-- What a call leaves of the memory `mem`: the word at its start, the pointer at the
first character behind the whitespace, and everything from there on as it was. -/
structure Tokenized (atEnd : Bool) (mem mem' : Bytes) (buf : Nat) : Prop where
  word : ∃ stop, FirstUnquoted delimiters quotechar (cString mem) stop ∧
    cString mem' = dropQuotes delimiters quotechar atEnd ((cString mem).take stop) ∧
    buf = if stop = (cString mem).length then stop
      else stop + 1 +
        (((cString mem).drop (stop + 1)).takeWhile (· ∈ whitespace.chars)).length
  inside : buf ≤ (cString mem).length
  beyond : mem'.length = mem.length ∧ mem'.drop buf = mem.drop buf

variable {delimiters whitespace quotechar}

theorem cString_behind {mem : Bytes} (h : (0 : UInt8) ∈ mem) :
    ∃ behind, mem = cString mem ++ 0 :: behind := by
  have hsplit : cString mem ++ mem.dropWhile (· ≠ 0) = mem := List.takeWhile_append_dropWhile
  have hhead := List.head?_dropWhile_not (fun c : UInt8 => decide (c ≠ 0)) mem
  cases hrest : mem.dropWhile (· ≠ 0) with
  | nil =>
    have hall := List.dropWhile_eq_nil_iff.mp hrest 0 h
    cases hall
  | cons c behind =>
    rw [hrest] at hhead hsplit
    have hc : c = 0 := by simpa using hhead
    exact ⟨behind, by rw [← hc]; exact hsplit.symm⟩

theorem zero_notMem_cString (mem : Bytes) : (0 : UInt8) ∉ cString mem := by
  intro h
  have hc := List.mem_takeWhile_imp h
  simp at hc

/-- What is left behind the first word, from where the scan stops. -/
theorem skipQuoted_drop {text : Bytes} {stop : Nat}
    (hscan : scanWord delimiters.chars quotechar [] text =
      (dropQuotes delimiters quotechar true (text.take stop), text.drop stop))
    (hle : stop ≤ text.length) {buf : Nat}
    (hbuf : buf = if stop = text.length then stop
      else stop + 1 + ((text.drop (stop + 1)).takeWhile (· ∈ whitespace.chars)).length) :
    Server.AuthHeader.skipQuoted delimiters.chars whitespace.chars quotechar text =
        (dropQuotes delimiters quotechar true (text.take stop), text.drop buf) ∧
      buf ≤ text.length := by
  unfold Server.AuthHeader.skipQuoted
  rw [hscan]
  by_cases hend : stop = text.length
  · rw [if_pos hend] at hbuf
    subst hbuf
    rw [hend, List.drop_length]
    exact ⟨rfl, Nat.le_refl _⟩
  · have hlt : stop < text.length := by omega
    have hsplit : (text.drop (stop + 1)).takeWhile (fun c => decide (c ∈ whitespace.chars)) ++
        (text.drop (stop + 1)).dropWhile (fun c => decide (c ∈ whitespace.chars)) =
          text.drop (stop + 1) :=
      List.takeWhile_append_dropWhile
    have hlength := congrArg List.length hsplit
    rw [List.length_append, List.length_drop] at hlength
    have hafter := @List.drop_left _
      ((text.drop (stop + 1)).takeWhile fun c => decide (c ∈ whitespace.chars))
      ((text.drop (stop + 1)).dropWhile fun c => decide (c ∈ whitespace.chars))
    rw [hsplit, List.drop_drop] at hafter
    rw [if_neg hend] at hbuf
    subst hbuf
    constructor
    · rw [List.drop_eq_getElem_cons hlt, hafter]
    · omega

theorem skipQuoted_tokenized (buffer : Buffer) :
    ∃ mem buf, skipQuoted delimiters whitespace quotechar buffer.mem = some (mem, buf) ∧
      Tokenized delimiters whitespace quotechar true buffer.mem mem buf := by
  obtain ⟨behind, hmem⟩ := cString_behind buffer.terminated
  have hzero := zero_notMem_cString buffer.mem
  have hfits : (cString buffer.mem).length ≤ rsizeMaxStr :=
    Nat.le_trans (List.takeWhile_prefix _).length_le buffer.fits
  generalize htext : cString buffer.mem = text at hmem hzero hfits
  obtain ⟨stop, hfirst, hscan⟩ := @scanWord_first delimiters quotechar text
  obtain ⟨hwords, hinside⟩ := @skipQuoted_drop delimiters whitespace quotechar text stop hscan
    hfirst.le _ rfl
  obtain ⟨n, hskip, hlength, hgap, hword, -⟩ := skipQuoted_text hzero hfits behind hwords
  generalize hbuf : (if stop = text.length then stop
    else stop + 1 + ((text.drop (stop + 1)).takeWhile (· ∈ whitespace.chars)).length) = buf
    at hwords hinside hskip hlength hgap
  generalize hclean : dropQuotes delimiters quotechar true (text.take stop) = word
    at hskip hlength hword
  rw [List.length_drop] at hlength
  have hfront : (word ++ List.replicate n (0 : UInt8)).length = buf := by
    rw [List.length_append, List.length_replicate]
    omega
  have hreached : word.length + n = buf := by omega
  refine ⟨_, _, by rw [hmem]; exact hskip, ?_⟩
  rw [hreached]
  constructor
  · refine ⟨stop, htext ▸ hfirst, ?_, ?_⟩
    · rw [htext, hclean]
      cases n with
      | zero =>
        have hempty : text.drop buf = [] := by
          by_contra hne
          exact hgap hne rfl
        rw [hempty]
        exact cString_append_zero hword behind
      | succ n =>
        rw [List.replicate_succ, List.cons_append]
        exact cString_append_zero hword _
    · rw [htext]
      exact hbuf.symm
  · rw [htext]
    exact hinside
  · constructor
    · rw [hmem]
      simp only [List.length_append, List.length_replicate, List.length_cons, List.length_drop]
      omega
    · rw [hmem, ← List.append_assoc, List.drop_left' hfront, List.drop_append_of_le_length hinside]

/-- A word that is not empty has taken something from the text. -/
theorem Tokenized.progress {mem mem' : Bytes} {buf : Nat} (hzero : (0 : UInt8) ∈ mem)
    (t : Tokenized delimiters whitespace quotechar true mem mem' buf) (hword : cString mem' ≠ []) :
    (cString (mem'.drop buf)).length < (cString mem).length := by
  obtain ⟨behind, hmem⟩ := cString_behind hzero
  have htext := zero_notMem_cString mem
  have hinside := t.inside
  have hpos : 0 < buf := by
    obtain ⟨stop, -, hclean, hbuf⟩ := t.word
    cases stop with
    | zero => exact absurd hclean hword
    | succ stop =>
      rw [hbuf]
      split
      · exact Nat.succ_pos stop
      · omega
  generalize cString mem = text at hmem htext hinside
  have hrest : (0 : UInt8) ∉ text.drop buf := fun h => htext (List.mem_of_mem_drop h)
  rw [t.beyond.2, hmem, List.drop_append_of_le_length hinside, cString_append_zero hrest,
    List.length_drop]
  omega

structure Call where
  delimiters : CharSet
  whitespace : CharSet
  quotechar : UInt8

def Call.run (call : Call) (buffer : Buffer) : Option (Bytes × Nat) :=
  skipQuoted call.delimiters call.whitespace call.quotechar buffer.mem

/-- A loop of calls, each on the text where the last one left the pointer or further on. -/
structure CallerLoop where
  call : Nat → Call
  buffer : Nat → Buffer
  goesOn : ∀ k mem buf, (call k).run (buffer k) = some (mem, buf) →
    (buffer (k + 1)).text.length ≤ (cString (mem.drop buf)).length

/-- The call returns an empty word. -/
def CallerLoop.Ends (loop : CallerLoop) (k : Nat) : Prop :=
  ∃ mem buf, (loop.call k).run (loop.buffer k) = some (mem, buf) ∧ cString mem = []

theorem CallerLoop.shortens (loop : CallerLoop) {k : Nat} (h : ¬ loop.Ends k) :
    (loop.buffer (k + 1)).text.length < (loop.buffer k).text.length := by
  obtain ⟨mem, buf, hrun, htokenized⟩ := @skipQuoted_tokenized (loop.call k).delimiters
    (loop.call k).whitespace (loop.call k).quotechar (loop.buffer k)
  apply Nat.lt_of_le_of_lt (loop.goesOn k mem buf hrun)
  exact htokenized.progress (loop.buffer k).terminated fun hword => h ⟨mem, buf, hrun, hword⟩

/-- A loop of calls comes to an empty word before there are more calls than characters. -/
theorem CallerLoop.ends (loop : CallerLoop) :
    ∃ k ≤ (loop.buffer 0).text.length, loop.Ends k := by
  by_contra hnever
  push Not at hnever
  have hshorter (k : Nat) (hk : k ≤ (loop.buffer 0).text.length + 1) :
      (loop.buffer k).text.length + k ≤ (loop.buffer 0).text.length := by
    induction k with
    | zero => exact Nat.le_refl _
    | succ k ih =>
      have hbefore := ih (Nat.le_of_succ_le hk)
      have hstep := loop.shortens (hnever k (Nat.le_of_lt_succ hk))
      omega
  have hlast := hshorter _ (Nat.le_refl _)
  omega

/-- Every call ends and leaves a tokenized text, and so every loop of calls ends. -/
theorem skip_quoted_correct :
    (∀ (delimiters whitespace : CharSet) (quotechar : UInt8) (buffer : Buffer), ∃ mem buf,
      skipQuoted delimiters whitespace quotechar buffer.mem = some (mem, buf) ∧
        Tokenized delimiters whitespace quotechar true buffer.mem mem buf) ∧
      ∀ loop : CallerLoop, ∃ k ≤ (loop.buffer 0).text.length, loop.Ends k :=
  ⟨fun _ _ _ buffer => skipQuoted_tokenized buffer, CallerLoop.ends⟩

def quoteMark : CharSet where
  chars := [34]
  noZero := by decide
  fits := by decide

def blank : CharSet where
  chars := [32]
  noZero := by decide
  fits := by decide

/-- The letter `a` and a backslash. -/
def endsInQuote : Buffer where
  mem := [97, 92, 0]
  terminated := by decide
  fits := by decide

/-- A quote character at the end of the text stands before no delimiter, and goes too. -/
theorem skip_quoted_last_quote :
    skipQuoted quoteMark blank 92 endsInQuote.mem = some ([97, 0, 0], 2) ∧
      ¬ ∃ mem buf, skipQuoted quoteMark blank 92 endsInQuote.mem = some (mem, buf) ∧
        Tokenized quoteMark blank 92 false endsInQuote.mem mem buf := by
  have hrun : skipQuoted quoteMark blank 92 endsInQuote.mem = some ([97, 0, 0], 2) := by
    decide +kernel
  refine ⟨hrun, ?_⟩
  intro h
  obtain ⟨mem, buf, hskip, htokenized⟩ := h
  rw [hrun] at hskip
  cases hskip
  obtain ⟨stop, hfirst, hword, -⟩ := htokenized.word
  have htext : cString endsInQuote.mem = [97, 92] := by decide
  have hstop : stop = 2 := by
    have hle := hfirst.le
    have hfound := hfirst.found
    rw [htext] at hle hfound
    simp only [List.length_cons, List.length_nil] at hle hfound
    by_contra hne
    obtain ⟨⟨d, hd, hmem⟩, -⟩ := hfound (by omega)
    have hcases : stop = 0 ∨ stop = 1 := by omega
    cases hcases with
    | inl hzero =>
      subst hzero
      cases hd
      exact absurd hmem (by decide)
    | inr hone =>
      subst hone
      cases hd
      exact absurd hmem (by decide)
  rw [htext, hstop] at hword
  exact absurd hword (by decide +kernel)

end Calls

end LibEst.TokenizedWords
