import LibEst.Lib.Cells
import LibEst.Lib.Loop
import LibEst.Server.AuthHeader

/-! The tokenizer in the memory that it works on: a word is ended in place, and the
characters behind a quoted delimiter are moved over its quote character. -/
namespace LibEst.Tokenizer

open LibEst.Lib.ByteString LibEst.Lib.Cells LibEst.Lib.Loop LibEst.Server.AuthHeader

def rsizeMaxStr : Nat := (2 ^ 64 - 1) / 2

/-- A string that stands for the set of its characters. -/
structure CharSet where
  chars : Bytes
  noZero : (0 : UInt8) ∉ chars
  fits : chars.length ≤ rsizeMaxStr

/-- A string with the memory behind it, from its first character on. -/
structure Buffer where
  mem : Bytes
  terminated : (0 : UInt8) ∈ mem
  fits : mem.length ≤ rsizeMaxStr

def Buffer.text (buffer : Buffer) : Bytes := cString buffer.mem

section Spans

/-- Null for the error codes. -/
def strcspnS (dest : Bytes) (dmax : Nat) (src : Bytes) (slen : Nat) : Option Nat :=
  if dmax = 0 ∨ rsizeMaxStr < dmax ∨ slen = 0 ∨ rsizeMaxStr < slen then none
  else some (((cString dest).take dmax).takeWhile (· ∉ src.take slen)).length

def strspnS (dest : Bytes) (dmax : Nat) (src : Bytes) (slen : Nat) : Option Nat :=
  if dmax = 0 ∨ rsizeMaxStr < dmax ∨ slen = 0 ∨ rsizeMaxStr < slen then none
  else some (((cString dest).take dmax).takeWhile (· ∈ src.take slen)).length

def strnlenS (dest : Bytes) (dmax : Nat) : Nat := min (cString dest).length dmax

/-- Null where the string does not end within the object; an error counts as 0. -/
def estStrcspn (str1 : Bytes) (str2 : CharSet) : Option Nat :=
  if (0 : UInt8) ∉ str1 then none
  else if str1.head? = some 0 then some 0
  else some ((strcspnS str1 (strnlenS str1 rsizeMaxStr) str2.chars rsizeMaxStr).getD 0)

def estStrspn (str1 : Bytes) (str2 : CharSet) : Option Nat :=
  if (0 : UInt8) ∉ str1 then none
  else if str1.head? = some 0 then some 0
  else some ((strspnS str1 (strnlenS str1 rsizeMaxStr) str2.chars rsizeMaxStr).getD 0)

end Spans

/-- The memory from `begin_word` on, with the two pointers as distances from there. -/
structure Scan where
  mem : Bytes
  p : Nat
  endWord : Nat
  deriving DecidableEq

section Functions

variable (delimiters whitespace : CharSet) (quotechar : UInt8)

/-- The body of the loop over quoted delimiters; it stops with null where it would leave
the object. -/
def quotedTurn (s : Scan) : Turn Scan (Option Scan) :=
  match s.mem[s.p]? with
  | none => .stop none
  | some c =>
      if c ≠ quotechar then .stop (some s)
      else
        match s.mem[s.endWord]? with
        | none => .stop none
        | some e =>
            if e = 0 then .stop ((write s.mem s.p [0]).map fun mem => { s with mem })
            else
              match estStrcspn (s.mem.drop (s.endWord + 1)) delimiters with
              | none => .stop none
              | some endOff =>
                  match move s.mem s.p s.endWord (endOff + 1) with
                  | none => .stop none
                  | some mem => .more ⟨mem, s.p + endOff, s.endWord + endOff + 1⟩

theorem quotedTurn_shrinks :
    Shrinks (quotedTurn delimiters quotechar) fun s => s.mem.length - s.endWord := by
  intro s next h
  unfold quotedTurn at h
  split at h
  · cases h
  split at h
  · cases h
  split at h
  · cases h
  rename_i e hend
  split at h
  · cases h
  split at h
  · cases h
  split at h
  · cases h
  rename_i mem hmove
  cases h
  have hlt := (List.getElem?_eq_some_iff.mp hend).1
  have hlength := move_length hmove
  dsimp only
  omega

/-- What the quotes leave of the first word: nothing is done for an empty one. -/
def unquoteWord (mem : Bytes) : Option Scan := do
  let endWord ← estStrcspn mem delimiters
  if endWord = 0 then some ⟨mem, 0, 0⟩
  else
    let s ← loopTotal _ _ (quotedTurn_shrinks delimiters quotechar) ⟨mem, endWord - 1, endWord⟩
    let mem ← fill s.mem (s.p + 1) s.endWord 0
    some { s with mem }

/-- The memory afterwards, and how far the pointer to the buffer has moved. -/
def skipQuoted (mem : Bytes) : Option (Bytes × Nat) := do
  let s ← unquoteWord delimiters quotechar mem
  let e ← s.mem[s.endWord]?
  if e = 0 then some (s.mem, s.endWord)
  else
    let spaces ← estStrspn (s.mem.drop (s.endWord + 1)) whitespace
    let mem ← fill s.mem s.endWord (s.endWord + 1 + spaces) 0
    some (mem, s.endWord + 1 + spaces)

def skip (mem : Bytes) : Option (Bytes × Nat) := skipQuoted delimiters delimiters 0 mem

end Functions

section Refinement

variable {set : CharSet} {text : Bytes}

theorem zero_mem_text (text behind : Bytes) : (0 : UInt8) ∈ text ++ 0 :: behind := by simp

theorem head_text (h : (0 : UInt8) ∉ text) (behind : Bytes) :
    (text ++ 0 :: behind).head? = some 0 ↔ text = [] := by
  cases text with
  | nil => simp
  | cons c rest =>
    have hc : c ≠ 0 := fun hzero => h (by simp [hzero])
    simp [hc]

/-- A library error is not met with on a string of a length that is allowed. -/
theorem estStrcspn_text (h : (0 : UInt8) ∉ text) (hfits : text.length ≤ rsizeMaxStr)
    (behind : Bytes) :
    estStrcspn (text ++ 0 :: behind) set = some (text.takeWhile (· ∉ set.chars)).length := by
  have hmax : 0 < rsizeMaxStr := by decide
  rw [estStrcspn, if_neg (not_not.mpr (zero_mem_text text behind))]
  by_cases hempty : text = []
  · rw [if_pos ((head_text h behind).mpr hempty), hempty]
    rfl
  · have hpos := List.length_pos_iff.mpr hempty
    rw [if_neg ((head_text h behind).not.mpr hempty), strnlenS, strcspnS, cString_append_zero h,
      Nat.min_eq_left hfits, if_neg (by omega), List.take_length, List.take_of_length_le set.fits]
    rfl

theorem estStrspn_text (h : (0 : UInt8) ∉ text) (hfits : text.length ≤ rsizeMaxStr)
    (behind : Bytes) :
    estStrspn (text ++ 0 :: behind) set = some (text.takeWhile (· ∈ set.chars)).length := by
  have hmax : 0 < rsizeMaxStr := by decide
  rw [estStrspn, if_neg (not_not.mpr (zero_mem_text text behind))]
  by_cases hempty : text = []
  · rw [if_pos ((head_text h behind).mpr hempty), hempty]
    rfl
  · have hpos := List.length_pos_iff.mpr hempty
    rw [if_neg ((head_text h behind).not.mpr hempty), strnlenS, strspnS, cString_append_zero h,
      Nat.min_eq_left hfits, if_neg (by omega), List.take_length, List.take_of_length_le set.fits]
    rfl

variable {delimiters whitespace : CharSet} {quotechar : UInt8}

/-- Characters that are no delimiters go over to the word. -/
theorem scanWord_run {run : Bytes} (hrun : ∀ c ∈ run, c ∉ delimiters.chars) (word rest : Bytes) :
    scanWord delimiters.chars quotechar word (run ++ rest) =
      scanWord delimiters.chars quotechar (word ++ run) rest := by
  induction run generalizing word with
  | nil => rw [List.nil_append, List.append_nil]
  | cons c run ih =>
    rw [List.cons_append, scanWord, if_neg (hrun c (by simp)),
      ih (fun x hx => hrun x (by simp [hx])), List.append_assoc]
    rfl

/-- The word so far, the cells that were freed behind it, and the rest, which begins with
a delimiter or is empty. -/
structure Unquoting (delimiters : CharSet) (quotechar : UInt8) (text behind : Bytes) (s : Scan)
    (word gap rest : Bytes) : Prop where
  mem : s.mem = word ++ (gap ++ (rest ++ 0 :: behind))
  p : s.p + 1 = word.length
  endWord : s.endWord = word.length + gap.length
  length : s.endWord + rest.length = text.length
  delimiter : ∀ d ∈ rest.head?, d ∈ delimiters.chars
  noZero : (0 : UInt8) ∉ word ∧ (0 : UInt8) ∉ rest
  scan : scanWord delimiters.chars quotechar word rest =
    scanWord delimiters.chars quotechar [] text

variable {behind : Bytes} {s : Scan} {word gap rest : Bytes}

/-- The two characters that a turn looks at. -/
theorem Unquoting.cells (u : Unquoting delimiters quotechar text behind s word gap rest) :
    s.mem[s.p]? = word.getLast? ∧ s.mem[s.endWord]? = (rest ++ 0 :: behind).head? := by
  have hp := u.p
  constructor
  · rw [u.mem, List.getElem?_append_left (by omega), List.getLast?_eq_getElem?, ← u.p,
      Nat.add_sub_cancel]
  · rw [u.mem, ← List.append_assoc, List.getElem?_append_right, u.endWord, List.length_append,
      Nat.sub_self, List.head?_eq_getElem?]
    rw [u.endWord, List.length_append]

/-- A word that ends in the quote character loses it to the delimiter and what follows. -/
theorem Unquoting.more {w tail : Bytes} {d : UInt8} (hfits : text.length ≤ rsizeMaxStr)
    (u : Unquoting delimiters quotechar text behind s (w ++ [quotechar]) gap (d :: tail)) :
    ∃ next gap', quotedTurn delimiters quotechar s = .more next ∧
      Unquoting delimiters quotechar text behind next
        (w ++ d :: tail.takeWhile (· ∉ delimiters.chars)) gap'
        (tail.dropWhile (· ∉ delimiters.chars)) := by
  obtain ⟨hcell, hend⟩ := u.cells
  have hd : d ≠ 0 := fun hzero => u.noZero.2 (by simp [hzero])
  have htail : (0 : UInt8) ∉ tail := fun hzero => u.noZero.2 (by simp [hzero])
  have hmem := u.mem
  have hp := u.p
  have hendWord := u.endWord
  have hlength := u.length
  simp only [List.length_append, List.length_cons, List.length_nil] at hp hendWord hlength
  have hsplit : tail.takeWhile (fun c => decide (c ∉ delimiters.chars)) ++
      tail.dropWhile (fun c => decide (c ∉ delimiters.chars)) = tail :=
    List.takeWhile_append_dropWhile
  set run := tail.takeWhile (· ∉ delimiters.chars) with hrun
  set left := tail.dropWhile (· ∉ delimiters.chars) with hleft
  have hblocks : s.mem =
      w ++ ((quotechar :: gap) ++ ((d :: run) ++ (left ++ 0 :: behind))) := by
    rw [hmem, ← hsplit]
    simp
  have hdrop : s.mem.drop (s.endWord + 1) = tail ++ 0 :: behind := by
    have hfront : s.mem = (w ++ quotechar :: gap ++ [d]) ++ (tail ++ 0 :: behind) := by
      rw [hmem]
      simp
    rw [hfront]
    apply List.drop_left'
    simp only [List.length_append, List.length_cons, List.length_nil]
    omega
  have hspan : estStrcspn (s.mem.drop (s.endWord + 1)) delimiters = some run.length := by
    rw [hdrop]
    exact estStrcspn_text htail (by omega) behind
  have hmove : move s.mem s.p s.endWord (run.length + 1) =
      some (w ++ ((d :: run) ++ (((quotechar :: gap) ++ d :: run).drop (d :: run).length ++
        (left ++ 0 :: behind)))) := by
    rw [hblocks]
    exact move_left (by omega) (by rw [List.length_cons]; omega) rfl
  have hrunDelims : ∀ c ∈ run, c ∉ delimiters.chars := by
    intro c hc
    simpa using List.mem_takeWhile_imp hc
  have hlengths : run.length + left.length = tail.length := by
    rw [← List.length_append, hsplit]
  have hzeros : (0 : UInt8) ∉ w ++ d :: run ∧ (0 : UInt8) ∉ left := by
    have hword := u.noZero.1
    rw [← hsplit] at htail
    simp only [List.mem_append, List.mem_cons, not_or] at hword htail ⊢
    exact ⟨⟨hword.1, Ne.symm hd, htail.1⟩, htail.2⟩
  refine ⟨⟨w ++ ((d :: run) ++ (((quotechar :: gap) ++ d :: run).drop (d :: run).length ++
    (left ++ 0 :: behind))), s.p + run.length, s.endWord + run.length + 1⟩,
    ((quotechar :: gap) ++ d :: run).drop (d :: run).length, ?_, ?_⟩
  · rw [quotedTurn, hcell, List.getLast?_concat]
    dsimp only
    rw [if_neg (not_not.mpr rfl), hend]
    dsimp only [List.cons_append, List.head?_cons]
    rw [if_neg hd, hspan]
    dsimp only
    rw [hmove]
    rfl
  · constructor
    · exact (List.append_assoc w _ _).symm
    · simp only [List.length_append, List.length_cons]
      omega
    · simp only [List.length_append, List.length_cons, List.length_drop]
      omega
    · dsimp only
      omega
    · intro c hc
      have hhead := List.head?_dropWhile_not (fun c => decide (c ∉ delimiters.chars)) tail
      rw [← hleft, Option.mem_def.mp hc] at hhead
      simpa using hhead
    · exact hzeros
    · have hstep := u.scan
      rw [scanWord, if_pos (u.delimiter d rfl), if_pos List.getLast?_concat, List.dropLast_concat,
        ← hsplit, scanWord_run hrunDelims, List.append_assoc] at hstep
      exact hstep

/-- The word is ended, and the cells up to the rest are zero. -/
structure Ended (delimiters : CharSet) (quotechar : UInt8) (text behind mem : Bytes)
    (endWord : Nat) (word rest : Bytes) : Prop where
  mem : ∃ n, word.length + n = endWord ∧
    mem = word ++ (List.replicate n 0 ++ (rest ++ 0 :: behind))
  length : endWord + rest.length = text.length
  delimiter : ∀ d ∈ rest.head?, d ∈ delimiters.chars
  noZero : (0 : UInt8) ∉ word ∧ (0 : UInt8) ∉ rest
  scan : scanWord delimiters.chars quotechar [] text = (word, rest)

/-- A word that does not end in the quote character stays as it is. -/
theorem Unquoting.plain (u : Unquoting delimiters quotechar text behind s word gap rest)
    (hlast : word.getLast? ≠ some quotechar) :
    quotedTurn delimiters quotechar s = .stop (some s) ∧
      ∃ mem, fill s.mem (s.p + 1) s.endWord 0 = some mem ∧
        Ended delimiters quotechar text behind mem s.endWord word rest := by
  constructor
  · rw [quotedTurn, u.cells.1]
    cases hc : word.getLast? with
    | none =>
      have hp := u.p
      rw [List.getLast?_eq_none_iff.mp hc] at hp
      cases hp
    | some c =>
      rw [hc] at hlast
      dsimp only
      rw [if_pos fun heq => hlast (congrArg some heq)]
  · refine ⟨_, ?_, ⟨gap.length, u.endWord.symm, rfl⟩, u.length, u.delimiter, u.noZero, ?_⟩
    · rw [u.mem]
      exact fill_append u.p.symm u.endWord.symm 0
    · rw [← u.scan]
      cases rest with
      | nil => rw [scanWord, if_neg hlast]
      | cons d tail => rw [scanWord, if_pos (u.delimiter d rfl), if_neg hlast]

/-- A quote character at the end of the text is removed. -/
theorem Unquoting.last {w : Bytes}
    (u : Unquoting delimiters quotechar text behind s (w ++ [quotechar]) gap []) :
    ∃ mem, quotedTurn delimiters quotechar s = .stop (some { s with mem }) ∧
      ∃ mem', fill mem (s.p + 1) s.endWord 0 = some mem' ∧
        Ended delimiters quotechar text behind mem' s.endWord w [] := by
  obtain ⟨hcell, hend⟩ := u.cells
  have hp := u.p
  have hendWord := u.endWord
  have hlength := u.length
  have hmem := u.mem
  have hnoZero := u.noZero.1
  simp only [List.length_append, List.length_cons, List.length_nil] at hp hendWord hlength
  rw [List.mem_append, not_or] at hnoZero
  rw [List.append_assoc] at hmem
  have hwrite : write s.mem s.p [0] = some (w ++ ([0] ++ (gap ++ ([] ++ 0 :: behind)))) := by
    rw [hmem]
    exact write_append (by omega) rfl
  have hfill : fill (w ++ [0] ++ (gap ++ ([] ++ 0 :: behind))) (s.p + 1) s.endWord 0 =
      some (w ++ [0] ++ (List.replicate gap.length 0 ++ ([] ++ 0 :: behind))) := by
    apply fill_append
    · rw [List.length_append, List.length_singleton]
      omega
    · rw [List.length_append, List.length_singleton]
      omega
  refine ⟨w ++ ([0] ++ (gap ++ ([] ++ 0 :: behind))), ?_,
    w ++ [0] ++ (List.replicate gap.length 0 ++ ([] ++ 0 :: behind)), ?_, ?_⟩
  · rw [quotedTurn, hcell, List.getLast?_concat]
    dsimp only
    rw [if_neg (not_not.mpr rfl), hend]
    dsimp only [List.nil_append, List.head?_cons]
    rw [if_pos rfl, hwrite]
    rfl
  · rw [← List.append_assoc]
    exact hfill
  · refine ⟨⟨gap.length + 1, by omega, ?_⟩, hlength, u.delimiter, ⟨hnoZero.1, by simp⟩, ?_⟩
    · rw [List.append_assoc, Nat.add_comm gap.length 1, List.replicate_add, List.append_assoc]
      rfl
    · have hscan := u.scan
      rw [scanWord, if_pos List.getLast?_concat, List.dropLast_concat] at hscan
      exact hscan.symm

/-- A turn goes on with a longer word, or ends the word. -/
theorem Unquoting.turn (hfits : text.length ≤ rsizeMaxStr)
    (u : Unquoting delimiters quotechar text behind s word gap rest) :
    (∃ next word' gap' rest', quotedTurn delimiters quotechar s = .more next ∧
        Unquoting delimiters quotechar text behind next word' gap' rest') ∨
      ∃ mem word' mem', quotedTurn delimiters quotechar s = .stop (some { s with mem }) ∧
        fill mem (s.p + 1) s.endWord 0 = some mem' ∧
        Ended delimiters quotechar text behind mem' s.endWord word' rest := by
  by_cases hlast : word.getLast? = some quotechar
  · obtain ⟨w, rfl⟩ := List.getLast?_eq_some_iff.mp hlast
    cases rest with
    | nil =>
      obtain ⟨mem, hturn, mem', hfill, hended⟩ := u.last
      exact Or.inr ⟨mem, w, mem', hturn, hfill, hended⟩
    | cons d tail =>
      obtain ⟨next, gap', hturn, hnext⟩ := u.more hfits
      exact Or.inl ⟨next, _, gap', _, hturn, hnext⟩
  · obtain ⟨hturn, mem', hfill, hended⟩ := u.plain hlast
    exact Or.inr ⟨s.mem, word, mem', hturn, hfill, hended⟩

/-- The loop ends, and stays within the object. -/
theorem Unquoting.run (hfits : text.length ≤ rsizeMaxStr)
    (u : Unquoting delimiters quotechar text behind s word gap rest) :
    ∃ last mem word' rest',
      loopTotal _ _ (quotedTurn_shrinks delimiters quotechar) s = some last ∧
        fill last.mem (last.p + 1) last.endWord 0 = some mem ∧
        Ended delimiters quotechar text behind mem last.endWord word' rest' := by
  let inv (s : Scan) : Prop :=
    ∃ word gap rest, Unquoting delimiters quotechar text behind s word gap rest
  let post (result : Option Scan) : Prop :=
    ∃ last mem word' rest', result = some last ∧
      fill last.mem (last.p + 1) last.endWord 0 = some mem ∧
      Ended delimiters quotechar text behind mem last.endWord word' rest'
  refine @loopTotal_rule _ _ _ _ (quotedTurn_shrinks delimiters quotechar) inv post ?_ ?_ s
    ⟨word, gap, rest, u⟩
  · intro s next hinv hmore
    obtain ⟨word, gap, rest, u⟩ := hinv
    cases u.turn hfits with
    | inl hgoes =>
      obtain ⟨next', word', gap', rest', hturn, hnext⟩ := hgoes
      rw [hturn] at hmore
      cases hmore
      exact ⟨word', gap', rest', hnext⟩
    | inr hstops =>
      obtain ⟨mem, word', mem', hturn, -⟩ := hstops
      rw [hturn] at hmore
      cases hmore
  · intro s result hinv hstop
    obtain ⟨word, gap, rest, u⟩ := hinv
    cases u.turn hfits with
    | inl hgoes =>
      obtain ⟨next', word', gap', rest', hturn, -⟩ := hgoes
      rw [hturn] at hstop
      cases hstop
    | inr hstops =>
      obtain ⟨mem, word', mem', hturn, hfill, hended⟩ := hstops
      rw [hturn] at hstop
      cases hstop
      exact ⟨_, mem', word', rest, rfl, hfill, hended⟩

theorem unquoteWord_ended (h : (0 : UInt8) ∉ text) (hfits : text.length ≤ rsizeMaxStr)
    (behind : Bytes) :
    ∃ s word rest, unquoteWord delimiters quotechar (text ++ 0 :: behind) = some s ∧
      Ended delimiters quotechar text behind s.mem s.endWord word rest := by
  have hsplit : text.takeWhile (fun c => decide (c ∉ delimiters.chars)) ++
      text.dropWhile (fun c => decide (c ∉ delimiters.chars)) = text :=
    List.takeWhile_append_dropWhile
  have hspan : estStrcspn (text ++ 0 :: behind) delimiters =
      some (text.takeWhile fun c => decide (c ∉ delimiters.chars)).length :=
    estStrcspn_text h hfits behind
  have hhead := List.head?_dropWhile_not (fun c => decide (c ∉ delimiters.chars)) text
  set front := text.takeWhile (· ∉ delimiters.chars) with hfront
  set left := text.dropWhile (· ∉ delimiters.chars) with hleft
  have hfree : ∀ c ∈ front, c ∉ delimiters.chars := by
    intro c hc
    simpa using List.mem_takeWhile_imp hc
  have hdelimiter : ∀ d ∈ left.head?, d ∈ delimiters.chars := by
    intro d hd
    rw [Option.mem_def.mp hd] at hhead
    simpa using hhead
  have hlength : front.length + left.length = text.length := by
    rw [← List.length_append, hsplit]
  have hzeros : (0 : UInt8) ∉ front ∧ (0 : UInt8) ∉ left := by
    rw [← hsplit, List.mem_append, not_or] at h
    exact h
  have hscan : scanWord delimiters.chars quotechar [] text =
      scanWord delimiters.chars quotechar front left := by
    have hrun := @scanWord_run delimiters quotechar front hfree [] left
    rw [hsplit, List.nil_append] at hrun
    exact hrun
  by_cases hempty : front = []
  · refine ⟨⟨text ++ 0 :: behind, 0, 0⟩, [], left, ?_, ?_⟩
    · simp [unquoteWord, hspan, hempty]
    · rw [hempty, List.nil_append] at hsplit
      rw [hempty, List.length_nil] at hlength
      refine ⟨⟨0, rfl, ?_⟩, hlength, hdelimiter, ⟨by simp, hzeros.2⟩, ?_⟩
      · rw [hsplit]
        rfl
      · rw [hscan, hempty]
        cases hl : left with
        | nil => rfl
        | cons d tail =>
          rw [hl] at hdelimiter
          rw [scanWord, if_pos (hdelimiter d rfl)]
          rfl
  · have hpos := List.length_pos_iff.mpr hempty
    have hstart : Unquoting delimiters quotechar text behind
        ⟨text ++ 0 :: behind, front.length - 1, front.length⟩ front [] left := by
      constructor
      · rw [List.nil_append, ← List.append_assoc, hsplit]
      · dsimp only
        omega
      · rfl
      · exact hlength
      · exact hdelimiter
      · exact hzeros
      · exact hscan.symm
    obtain ⟨last, mem, word, rest, hloop, hfill, hended⟩ := hstart.run hfits
    refine ⟨{ last with mem }, word, rest, ?_, hended⟩
    simp [unquoteWord, hspan, hempty, hloop, hfill]

/-- In memory, the word stands at the start, the rest is where it was, and the cells
between are zero. -/
theorem skipQuoted_text (h : (0 : UInt8) ∉ text) (hfits : text.length ≤ rsizeMaxStr)
    (behind : Bytes) {word after : Bytes}
    (hwords : Server.AuthHeader.skipQuoted delimiters.chars whitespace.chars quotechar text =
      (word, after)) :
    ∃ n, skipQuoted delimiters whitespace quotechar (text ++ 0 :: behind) =
        some (word ++ (List.replicate n 0 ++ (after ++ 0 :: behind)), word.length + n) ∧
      word.length + n + after.length = text.length ∧ (after ≠ [] → n ≠ 0) ∧ (0 : UInt8) ∉ word ∧
      (0 : UInt8) ∉ after := by
  obtain ⟨s, word', rest, hword, hended⟩ :=
    @unquoteWord_ended text delimiters quotechar h hfits behind
  obtain ⟨n, hn, hmem⟩ := hended.mem
  have hlength := hended.length
  have hfront : s.mem = (word' ++ List.replicate n 0) ++ (rest ++ 0 :: behind) := by
    rw [hmem, List.append_assoc]
  have hend : (word' ++ List.replicate n (0 : UInt8)).length = s.endWord := by
    rw [List.length_append, List.length_replicate, hn]
  have hcell : s.mem[s.endWord]? = (rest ++ 0 :: behind).head? := by
    rw [hfront, List.getElem?_append_right (Nat.le_of_eq hend), hend, Nat.sub_self,
      List.head?_eq_getElem?]
  unfold Server.AuthHeader.skipQuoted at hwords
  rw [hended.scan] at hwords
  cases rest with
  | nil =>
    cases hwords
    refine ⟨n, ?_, ?_, by simp, hended.noZero.1, by simp⟩
    · rw [skipQuoted, hword, Option.bind_eq_bind, Option.bind_some, hcell]
      simp [hmem, hn]
    · rw [List.length_nil] at hlength ⊢
      omega
  | cons d tail =>
    cases hwords
    have hd : d ≠ 0 := fun hzero => hended.noZero.2 (by simp [hzero])
    have htail : (0 : UInt8) ∉ tail := fun hzero => hended.noZero.2 (by simp [hzero])
    have hsplit : tail.takeWhile (fun c => decide (c ∈ whitespace.chars)) ++
        tail.dropWhile (fun c => decide (c ∈ whitespace.chars)) = tail :=
      List.takeWhile_append_dropWhile
    set spaces := tail.takeWhile (· ∈ whitespace.chars) with hspaces
    set after := tail.dropWhile (· ∈ whitespace.chars) with hafter
    rw [List.length_cons] at hlength
    have hdrop : s.mem.drop (s.endWord + 1) = tail ++ 0 :: behind := by
      rw [hfront, ← List.drop_drop, List.drop_left' hend]
      rfl
    have hspan : estStrspn (s.mem.drop (s.endWord + 1)) whitespace = some spaces.length := by
      rw [hdrop]
      exact estStrspn_text htail (by omega) behind
    have hblocks : s.mem = (word ++ List.replicate n 0) ++
        ((d :: spaces) ++ (after ++ 0 :: behind)) := by
      rw [hfront, ← hsplit]
      simp
    have hfill : fill s.mem s.endWord (s.endWord + 1 + spaces.length) 0 =
        some ((word ++ List.replicate n 0) ++
          (List.replicate (d :: spaces).length 0 ++ (after ++ 0 :: behind))) := by
      rw [hblocks]
      exact fill_append hend (by rw [hend, List.length_cons]; omega) 0
    have hlengths : spaces.length + after.length = tail.length := by
      rw [← List.length_append, hsplit]
    refine ⟨n + (spaces.length + 1), ?_, ?_, by omega, hended.noZero.1, ?_⟩
    · rw [skipQuoted, hword, Option.bind_eq_bind, Option.bind_some, hcell]
      simp only [List.cons_append, List.head?_cons, Option.bind_eq_bind, Option.bind_some, if_neg hd,
        hspan, hfill]
      rw [List.append_assoc, ← List.append_assoc (List.replicate n 0), List.replicate_append_replicate,
        List.length_cons, ← hn]
      congr 2
      omega
    · omega
    · intro hzero
      exact htail (hsplit ▸ List.mem_append_right _ hzero)

end Refinement

end LibEst.Tokenizer
