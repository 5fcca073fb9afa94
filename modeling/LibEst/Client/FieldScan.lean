import LibEst.Client.HeaderLines

/-! The fields of a challenge. The scanner walks over the memory of the string, where
nothing is there behind the terminating zero; the text falls into fields by itself, and
the two agree as long as no comment stays open. -/
namespace LibEst.Client.FieldScan

open LibEst.Basic LibEst.Base64 LibEst.Lib.ByteString LibEst.Lib.Loop LibEst.Client.Http
open LibEst.Client.HeaderLines

section Memory

/-- The memory of a string from a pointer on, the terminating zero included. -/
abbrev Memory := Bytes

/-- A token as it stands between its ends. The room is what is left of the memory
from its first character on. -/
structure Field where
  text : Bytes
  quoted : Bool
  room : Nat
  deriving DecidableEq, Repr

/-- The loops over `p`, null where they read behind the memory. -/
def skipSeparators : Memory → Option Memory
  | [] => none
  | c :: rest => if c ≠ 0 ∧ isFieldSeparator c then skipSeparators rest else some (c :: rest)

def skipWord : Memory → Option Memory
  | [] => none
  | c :: rest => if c ≠ 0 ∧ ¬ isFieldSeparator c then skipWord rest else some (c :: rest)

/-- A backslash takes the next character along, unless that is the zero. -/
def skipQuotedTo (close : UInt8) : Memory → Option Memory
  | [] => none
  | [c] => if c = 0 ∨ c = close then some [c] else none
  | c :: d :: rest =>
      if c = 0 ∨ c = close then some (c :: d :: rest)
      else if c = 92 ∧ d ≠ 0 then skipQuotedTo close rest
      else skipQuotedTo close (d :: rest)

/-- A field, null where there is none, and the pointer behind it; the outer null is a
read outside of the memory. -/
abbrev Scan := Option (Option Field × Memory)

/-- The field is ended with a zero in place of the character behind it. -/
def endField (quoted : Bool) (start : Memory) : Option Memory → Scan
  | none => none
  | some [] => none
  | some (c :: rest) =>
      let field := ⟨start.take (start.length - (c :: rest).length), quoted, start.length⟩
      some (some field, if c = 0 then c :: rest else rest)

/-- One round of `while (1)`. Behind a comment the pointer goes on in any case. -/
def scanTurn (mem : Memory) : Turn Memory Scan :=
  match skipSeparators mem with
  | none => .stop none
  | some [] => .stop none
  | some (c :: rest) =>
      if c = 0 then .stop (some (none, c :: rest))
      else if c = 34 then .stop (endField true rest (skipQuotedTo 34 rest))
      else if c = 60 then .stop (endField true rest (skipQuotedTo 62 rest))
      else if c = 40 then
        match skipQuotedTo 41 (c :: rest) with
        | none => .stop none
        | some [] => .stop none
        | some (_ :: behind) => .more behind
      else .stop (endField false (c :: rest) (skipWord (c :: rest)))

theorem skipSeparators_length_le {mem next : Memory} (h : skipSeparators mem = some next) :
    next.length ≤ mem.length := by
  induction mem with
  | nil => cases h
  | cons c rest ih =>
    rw [skipSeparators] at h
    split at h
    · exact (ih h).trans (Nat.le_succ _)
    · cases h
      exact le_refl _

theorem skipSeparators_front {mem rest : Memory} {c : UInt8}
    (h : skipSeparators mem = some (c :: rest)) : c = 0 ∨ ¬ isFieldSeparator c := by
  induction mem with
  | nil => cases h
  | cons d mem ih =>
    rw [skipSeparators] at h
    split at h
    · exact ih h
    · rename_i hstop
      cases h
      by_cases hc : c = 0
      · exact Or.inl hc
      · exact Or.inr fun hseparator => hstop ⟨hc, hseparator⟩

theorem skipWord_length_le {mem next : Memory} (h : skipWord mem = some next) :
    next.length ≤ mem.length := by
  induction mem with
  | nil => cases h
  | cons c rest ih =>
    rw [skipWord] at h
    split at h
    · exact (ih h).trans (Nat.le_succ _)
    · cases h
      exact le_refl _

theorem skipQuotedTo_length_le {close : UInt8} {mem next : Memory}
    (h : skipQuotedTo close mem = some next) : next.length ≤ mem.length := by
  fun_induction skipQuotedTo close mem with
  | case1 => cases h
  | case2 c =>
    cases h
    exact le_refl _
  | case3 => cases h
  | case4 c d rest =>
    cases h
    exact le_refl _
  | case5 c d rest _ _ ih => exact (ih h).trans (Nat.le_add_right _ 2)
  | case6 c d rest _ _ ih => exact (ih h).trans (Nat.le_succ _)

theorem scanTurn_shrinks : Shrinks scanTurn List.length := by
  intro mem next h
  unfold scanTurn at h
  split at h
  · cases h
  · cases h
  · rename_i c rest hfront
    have hle := skipSeparators_length_le hfront
    split at h
    · cases h
    · split at h
      · cases h
      · split at h
        · cases h
        · split at h
          · split at h
            · cases h
            · cases h
            · rename_i behind hcomment
              have hquoted := skipQuotedTo_length_le hcomment
              cases h
              rw [List.length_cons] at hquoted
              omega
          · cases h

def htNextFieldIn (mem : Memory) : Scan :=
  loopTotal scanTurn List.length scanTurn_shrinks mem

theorem endField_length {quoted : Bool} {start rest : Memory} {next : Option Memory}
    {field : Option Field} {n : Nat} (hnext : ∀ p, next = some p → p.length ≤ n)
    (h : endField quoted start next = some (field, rest)) : rest.length ≤ n := by
  unfold endField at h
  split at h
  · cases h
  · cases h
  · rename_i c behind
    have hle := hnext (c :: behind) rfl
    rw [List.length_cons] at hle
    cases h
    split
    · exact hle
    · omega

theorem scanTurn_length {mem rest : Memory} {field : Option Field}
    (h : scanTurn mem = .stop (some (field, rest))) :
    rest.length ≤ mem.length ∧ (field ≠ none → rest.length < mem.length) := by
  unfold scanTurn at h
  split at h
  · cases h
  · cases h
  · rename_i c behind hfront
    have hle := skipSeparators_length_le hfront
    rw [List.length_cons] at hle
    have hshort {next : Option Memory} {quoted : Bool} {start : Memory}
        (hnext : ∀ p, next = some p → p.length ≤ behind.length)
        (hend : endField quoted start next = some (field, rest)) :
        rest.length ≤ mem.length ∧ (field ≠ none → rest.length < mem.length) := by
      have hrest := endField_length hnext hend
      exact ⟨by omega, fun _ => by omega⟩
    split at h
    · cases h
      exact ⟨by simpa using hle, fun hfield => absurd rfl hfield⟩
    · split at h
      · exact hshort (fun p hp => skipQuotedTo_length_le hp) (Turn.stop.inj h)
      · split at h
        · exact hshort (fun p hp => skipQuotedTo_length_le hp) (Turn.stop.inj h)
        · split at h
          · split at h
            · cases h
            · cases h
            · cases h
          · rename_i hc _ _ _
            have hword := (skipSeparators_front hfront).resolve_left hc
            have hskip : skipWord (c :: behind) = skipWord behind := by
              rw [skipWord, if_pos ⟨hc, hword⟩]
            rw [hskip] at h
            exact hshort (fun p hp => skipWord_length_le hp) (Turn.stop.inj h)

/-- A field takes something away from the memory, and the pointer never goes back. -/
theorem htNextFieldIn_length {mem rest : Memory} {field : Option Field}
    (h : htNextFieldIn mem = some (field, rest)) :
    rest.length ≤ mem.length ∧ (field ≠ none → rest.length < mem.length) := by
  let front (p : Memory) : Prop := p.length ≤ mem.length
  let shorter (scan : Scan) : Prop := ∀ field rest, scan = some (field, rest) →
    rest.length ≤ mem.length ∧ (field ≠ none → rest.length < mem.length)
  have hmore (p next : Memory) (hp : front p) (hnext : scanTurn p = .more next) : front next :=
    (Nat.lt_of_lt_of_le (scanTurn_shrinks p next hnext) hp).le
  have hstop (p : Memory) (scan : Scan) (hp : front p) (hscan : scanTurn p = .stop scan) :
      shorter scan := by
    intro field rest hsome
    rw [hsome] at hscan
    have hlength := scanTurn_length hscan
    exact ⟨hlength.1.trans hp, fun hfield => Nat.lt_of_lt_of_le (hlength.2 hfield) hp⟩
  exact loopTotal_rule scanTurn_shrinks hmore hstop (le_refl mem.length) field rest h

end Memory

section Text

/-- A field as the text has it: whether its quote is closed, and the separators that
stand before it. -/
structure Item extends Field where
  closed : Bool
  before : Bytes
  deriving DecidableEq, Repr

/-- The front of a text: nothing, a comment that stays open, or a field with what is
behind it, the separators apart that are already read. -/
inductive Lexed where
  | ended
  | opened
  | item (field : Item) (behind : Bytes × Bytes)
  deriving DecidableEq

/-- Whether the closing character is found. -/
def closes (close : UInt8) : Bytes → Bool
  | [] => false
  | [c] => c = close
  | c :: d :: rest =>
      if c = close then true else if c = 92 then closes close rest else closes close (d :: rest)

def quotedItem (close : UInt8) (before text : Bytes) : Lexed :=
  let (field, rest) := quotedField close text
  .item ⟨⟨field, true, text.length + 1⟩, closes close text, before⟩ ([], rest)

def wordItem (before text : Bytes) : Lexed :=
  let (field, rest) := text.span fun c => ¬ isFieldSeparator c
  .item ⟨⟨field, false, text.length + 1⟩, true, before⟩ (rest.take 1, rest.drop 1)

def lexTurn (s : Bytes × Bytes) : Turn (Bytes × Bytes) Lexed :=
  let before := s.1 ++ s.2.takeWhile isFieldSeparator
  match s.2.dropWhile isFieldSeparator with
  | [] => .stop .ended
  | c :: rest =>
      if c = 34 then .stop (quotedItem 34 before rest)
      else if c = 60 then .stop (quotedItem 62 before rest)
      else if c = 40 then
        if closes 41 rest then .more (before, (quotedField 41 rest).2) else .stop .opened
      else .stop (wordItem before (c :: rest))

theorem lexTurn_shrinks : Shrinks lexTurn fun s => s.2.length := by
  intro s next h
  have hdrop := (List.dropWhile_suffix (l := s.2) isFieldSeparator).length_le
  unfold lexTurn at h
  dsimp only at h
  split at h
  · cases h
  · rename_i c rest hfront
    rw [hfront, List.length_cons] at hdrop
    have hquoted := quotedField_length_le 41 rest
    split at h
    · cases h
    · split at h
      · cases h
      · split at h
        · split at h
          · cases h
            exact Nat.lt_of_le_of_lt hquoted hdrop
          · cases h
        · cases h

def lex (s : Bytes × Bytes) : Lexed := loopTotal lexTurn (fun s => s.2.length) lexTurn_shrinks s

/-- The fields of a text, and whether a comment stays open behind them. -/
def lexAll : Nat → Bytes × Bytes → List Item × Bool
  | 0, _ => ([], false)
  | n + 1, s =>
      match lex s with
      | .ended => ([], false)
      | .opened => ([], true)
      | .item field behind =>
          let (fields, opened) := lexAll n behind
          (field :: fields, opened)

def fields (text : Bytes) : List Item × Bool := lexAll (text.length + 1) ([], text)

end Text

section Agreement

variable {text : Bytes}

theorem isFieldSeparator_ne_zero {c : UInt8} (h : isFieldSeparator c = true) : c ≠ 0 := by
  rintro rfl
  exact absurd h (by decide)

theorem skipSeparators_text (text : Bytes) :
    skipSeparators (text ++ [0]) = some (text.dropWhile isFieldSeparator ++ [0]) := by
  induction text with
  | nil => rfl
  | cons c text ih =>
    rw [List.cons_append, skipSeparators]
    by_cases hc : isFieldSeparator c = true
    · rw [if_pos ⟨isFieldSeparator_ne_zero hc, hc⟩, ih, List.dropWhile_cons_of_pos hc]
    · rw [if_neg fun h => hc h.2, List.dropWhile_cons_of_neg hc, List.cons_append]

theorem skipWord_text (hzero : (0 : UInt8) ∉ text) :
    skipWord (text ++ [0]) = some (text.dropWhile (fun c => ¬ isFieldSeparator c) ++ [0]) := by
  induction text with
  | nil => rfl
  | cons c text ih =>
    rw [List.mem_cons, not_or] at hzero
    rw [List.cons_append, skipWord]
    by_cases hc : isFieldSeparator c = true
    · rw [if_neg fun h => h.2 hc, List.dropWhile_cons_of_neg (by simp [hc]), List.cons_append]
    · rw [if_pos ⟨fun h => hzero.1 h.symm, hc⟩, ih hzero.2, List.dropWhile_cons_of_pos (by simp [hc])]

/-- A quoted field in the memory and in the text: it ends at the closing character,
or with the text. -/
theorem quotedField_cases (close : UInt8) (hzero : (0 : UInt8) ∉ text) :
    (closes close text = true ∧
      text = (quotedField close text).1 ++ close :: (quotedField close text).2 ∧
      skipQuotedTo close (text ++ [0]) = some (close :: ((quotedField close text).2 ++ [0]))) ∨
    (closes close text = false ∧ quotedField close text = (text, []) ∧
      skipQuotedTo close (text ++ [0]) = some [0]) := by
  fun_induction quotedField close text with
  | case1 => exact Or.inr ⟨rfl, rfl, rfl⟩
  | case2 => exact Or.inl ⟨by simp [closes], rfl, by simp [skipQuotedTo]⟩
  | case3 c hc =>
    have hc0 : c ≠ 0 := fun h => hzero (by simp [h])
    exact Or.inr ⟨by simp [closes, hc], rfl, by simp [skipQuotedTo, hc, hc0]⟩
  | case4 d rest => exact Or.inl ⟨by simp [closes], rfl, by simp [skipQuotedTo]⟩
  | case5 d rest field last hfield hc ih =>
    have hd : d ≠ 0 := fun h => hzero (by simp [h])
    have hcloses : closes close (92 :: d :: rest) = closes close rest := by
      rw [closes, if_neg hc, if_pos rfl]
    have hskip : skipQuotedTo close (92 :: d :: rest ++ [0]) = skipQuotedTo close (rest ++ [0]) := by
      rw [List.cons_append, List.cons_append, skipQuotedTo, if_neg (by simp [hc]),
        if_pos ⟨rfl, hd⟩]
    rw [hcloses, hskip]
    have hrest := ih fun hmem => hzero (by simp [hmem])
    rw [hfield] at hrest
    refine hrest.imp ?_ ?_
    · rintro ⟨hclosed, hsplit, hend⟩
      exact ⟨hclosed, by rw [hsplit]; rfl, hend⟩
    · rintro ⟨hopen, hall, hend⟩
      cases hall
      exact ⟨hopen, rfl, hend⟩
  | case6 c d rest hc hplain field last hfield ih =>
    have hc0 : c ≠ 0 := fun h => hzero (by simp [h])
    have hcloses : closes close (c :: d :: rest) = closes close (d :: rest) := by
      rw [closes, if_neg hc, if_neg hplain]
    have hskip : skipQuotedTo close (c :: d :: rest ++ [0]) =
        skipQuotedTo close (d :: rest ++ [0]) := by
      rw [List.cons_append, List.cons_append, skipQuotedTo, if_neg (by simp [hc, hc0]),
        if_neg fun h => hplain h.1]
    rw [hcloses, hskip]
    have hrest := ih fun hmem => hzero (List.mem_cons_of_mem c hmem)
    rw [hfield] at hrest
    refine hrest.imp ?_ ?_
    · rintro ⟨hclosed, hsplit, hend⟩
      exact ⟨hclosed, by rw [hsplit]; rfl, hend⟩
    · rintro ⟨hopen, hall, hend⟩
      cases hall
      exact ⟨hopen, rfl, hend⟩

theorem endField_closed (quoted : Bool) (field rest : Bytes) {close : UInt8} (hclose : close ≠ 0) :
    endField quoted (field ++ close :: rest ++ [0]) (some (close :: (rest ++ [0]))) =
      some (some ⟨field, quoted, (field ++ close :: rest).length + 1⟩, rest ++ [0]) := by
  have hlength : (field ++ close :: rest ++ [0]).length - (close :: (rest ++ [0])).length =
      field.length := by
    simp only [List.length_append, List.length_cons, List.length_nil]
    omega
  rw [endField, hlength, if_neg hclose, List.append_assoc, List.take_left]
  simp only [List.length_append, List.length_cons, List.length_nil, Nat.add_assoc]

theorem endField_open (quoted : Bool) (field : Bytes) :
    endField quoted (field ++ [0]) (some [0]) =
      some (some ⟨field, quoted, field.length + 1⟩, [0]) := by
  have hlength : (field ++ [0]).length - [(0 : UInt8)].length = field.length := by
    simp only [List.length_append, List.length_cons, List.length_nil]
    omega
  rw [endField, hlength, if_pos rfl, List.take_left, List.length_append]
  rfl

/-- What a scan of the memory comes to, by what the text has at its front. -/
def Lexed.scan : Lexed → Scan
  | .ended => some (none, [0])
  | .opened => none
  | .item field behind => some (some field.toField, behind.2 ++ [0])

theorem quotedItem_scan {close : UInt8} (hclose : close ≠ 0) (hzero : (0 : UInt8) ∉ text)
    (before : Bytes) :
    endField true (text ++ [0]) (skipQuotedTo close (text ++ [0])) =
      (quotedItem close before text).scan := by
  rcases quotedField_cases close hzero with ⟨-, hsplit, hend⟩ | ⟨-, hall, hend⟩
  · have hscan := endField_closed true (quotedField close text).1 (quotedField close text).2
      hclose
    rw [← hsplit] at hscan
    rw [hend, hscan]
    rfl
  · rw [hend, endField_open, quotedItem, hall]
    rfl

theorem wordItem_scan (hzero : (0 : UInt8) ∉ text) (before : Bytes) :
    endField false (text ++ [0]) (skipWord (text ++ [0])) = (wordItem before text).scan := by
  have hsplit : text.takeWhile (fun c => ¬ isFieldSeparator c) ++
      text.dropWhile (fun c => ¬ isFieldSeparator c) = text := List.takeWhile_append_dropWhile
  rw [skipWord_text hzero, wordItem, List.span_eq_takeWhile_dropWhile]
  dsimp only
  cases hrest : text.dropWhile fun c => ¬ isFieldSeparator c with
  | nil =>
    rw [hrest, List.append_nil] at hsplit
    rw [hsplit]
    exact endField_open false text
  | cons c rest =>
    rw [hrest] at hsplit
    have hc : c ≠ 0 := fun h => hzero (hsplit ▸ by simp [h])
    have hscan := endField_closed false (text.takeWhile fun c => ¬ isFieldSeparator c) rest hc
    rw [hsplit] at hscan
    exact hscan

theorem zero_notMem_dropWhile {p : UInt8 → Bool} (hzero : (0 : UInt8) ∉ text) :
    (0 : UInt8) ∉ text.dropWhile p :=
  fun h => hzero ((List.dropWhile_sublist p).mem h)

theorem zero_notMem_quoted (close : UInt8) (hzero : (0 : UInt8) ∉ text) :
    (0 : UInt8) ∉ (quotedField close text).2 := by
  rcases quotedField_cases close hzero with ⟨-, hsplit, -⟩ | ⟨-, hall, -⟩
  · exact fun h => hzero (hsplit ▸ by simp [h])
  · rw [hall]
    exact List.not_mem_nil

theorem skipQuotedTo_cons {close c : UInt8} (hc : c ≠ 0 ∧ c ≠ close ∧ c ≠ 92) (mem : Memory) :
    skipQuotedTo close (c :: mem) = skipQuotedTo close mem := by
  cases mem with
  | nil => simp [skipQuotedTo, hc.1, hc.2.1]
  | cons d mem =>
    rw [skipQuotedTo, if_neg (by simp [hc.1, hc.2.1]), if_neg fun h => hc.2.2 h.1]

/-- The scanner finds in the memory what the text has at its front; it leaves the
memory where a comment is open there. -/
theorem htNextFieldIn_text (hzero : (0 : UInt8) ∉ text) (before : Bytes) :
    htNextFieldIn (text ++ [0]) = (lex (before, text)).scan := by
  induction h : text.length using Nat.strongRecOn generalizing text before with
  | ind n ih =>
    have hfrontZero : (0 : UInt8) ∉ text.dropWhile isFieldSeparator := zero_notMem_dropWhile hzero
    have hdrop := (List.dropWhile_suffix (l := text) isFieldSeparator).length_le
    unfold htNextFieldIn lex
    cases hfront : text.dropWhile isFieldSeparator with
    | nil =>
      have hscan : scanTurn (text ++ [0]) = .stop (some (none, [0])) := by
        rw [scanTurn, skipSeparators_text, hfront]
        rfl
      have hlex : lexTurn (before, text) = .stop .ended := by
        simp only [lexTurn, hfront]
      rw [loopTotal_stop _ hscan, loopTotal_stop _ hlex]
      rfl
    | cons c rest =>
      rw [hfront] at hfrontZero hdrop
      have hc : c ≠ 0 := fun h => hfrontZero (by simp [h])
      have hrest : (0 : UInt8) ∉ rest := fun h => hfrontZero (by simp [h])
      have hscan : skipSeparators (text ++ [0]) = some (c :: (rest ++ [0])) := by
        rw [skipSeparators_text, hfront]
        rfl
      by_cases hquote : c = 34
      · have hturn : scanTurn (text ++ [0]) =
            .stop (endField true (rest ++ [0]) (skipQuotedTo 34 (rest ++ [0]))) := by
          simp only [scanTurn, hscan, if_neg hc, if_pos hquote]
        have hlex : lexTurn (before, text) = .stop (quotedItem 34
            (before ++ text.takeWhile isFieldSeparator) rest) := by
          simp only [lexTurn, hfront, if_pos hquote]
        rw [loopTotal_stop _ hturn, loopTotal_stop _ hlex, quotedItem_scan (by decide) hrest]
      · by_cases hangle : c = 60
        · have hturn : scanTurn (text ++ [0]) =
              .stop (endField true (rest ++ [0]) (skipQuotedTo 62 (rest ++ [0]))) := by
            simp only [scanTurn, hscan, if_neg hc, if_neg hquote, if_pos hangle]
          have hlex : lexTurn (before, text) = .stop (quotedItem 62
              (before ++ text.takeWhile isFieldSeparator) rest) := by
            simp only [lexTurn, hfront, if_neg hquote, if_pos hangle]
          rw [loopTotal_stop _ hturn, loopTotal_stop _ hlex, quotedItem_scan (by decide) hrest]
        · by_cases hcomment : c = 40
          · have hskip : skipQuotedTo 41 (c :: (rest ++ [0])) = skipQuotedTo 41 (rest ++ [0]) :=
              skipQuotedTo_cons ⟨hc, by rw [hcomment]; decide, by rw [hcomment]; decide⟩ _
            rcases quotedField_cases 41 hrest with ⟨hclosed, -, hend⟩ | ⟨hopen, -, hend⟩
            · have hturn : scanTurn (text ++ [0]) = .more ((quotedField 41 rest).2 ++ [0]) := by
                simp only [scanTurn, hscan, if_neg hc, if_neg hquote, if_neg hangle,
                  if_pos hcomment, hskip, hend]
              have hlex : lexTurn (before, text) =
                  .more (before ++ text.takeWhile isFieldSeparator,
                    (quotedField 41 rest).2) := by
                simp only [lexTurn, hfront, if_neg hquote, if_neg hangle, if_pos hcomment, hclosed,
                  if_true]
              have hshort : (quotedField 41 rest).2.length < n := by
                have hquoted := quotedField_length_le 41 rest
                rw [List.length_cons] at hdrop
                omega
              rw [loopTotal_more _ hturn, loopTotal_more _ hlex]
              exact ih _ hshort (zero_notMem_quoted 41 hrest) _ rfl
            · have hturn : scanTurn (text ++ [0]) = .more [] := by
                simp only [scanTurn, hscan, if_neg hc, if_neg hquote, if_neg hangle,
                  if_pos hcomment, hskip, hend]
              have hlex : lexTurn (before, text) = .stop .opened := by
                simp only [lexTurn, hfront, if_neg hquote, if_neg hangle, if_pos hcomment, hopen,
                  Bool.false_eq_true, if_false]
              rw [loopTotal_more _ hturn, loopTotal_stop _ hlex]
              exact loopTotal_stop _ rfl
          · have hturn : scanTurn (text ++ [0]) =
                .stop (endField false (c :: rest ++ [0]) (skipWord (c :: rest ++ [0]))) := by
              simp only [scanTurn, hscan, if_neg hc, if_neg hquote, if_neg hangle,
                if_neg hcomment, List.cons_append]
            have hlex : lexTurn (before, text) = .stop (wordItem
                (before ++ text.takeWhile isFieldSeparator) (c :: rest)) := by
              simp only [lexTurn, hfront, if_neg hquote, if_neg hangle, if_neg hcomment]
            rw [loopTotal_stop _ hturn, loopTotal_stop _ hlex, wordItem_scan hfrontZero]

theorem lexTurn_zero {s : Bytes × Bytes} (hzero : (0 : UInt8) ∉ s.2) :
    (∀ next, lexTurn s = .more next → (0 : UInt8) ∉ next.2) ∧
      ∀ field behind, lexTurn s = .stop (.item field behind) → (0 : UInt8) ∉ behind.2 := by
  have hfrontZero : (0 : UInt8) ∉ s.2.dropWhile isFieldSeparator := zero_notMem_dropWhile hzero
  unfold lexTurn
  cases hfront : s.2.dropWhile isFieldSeparator with
  | nil => exact ⟨nofun, nofun⟩
  | cons c rest =>
    rw [hfront] at hfrontZero
    have hrest : (0 : UInt8) ∉ rest := fun h => hfrontZero (by simp [h])
    dsimp only
    split
    · refine ⟨nofun, fun field behind h => ?_⟩
      cases h
      exact zero_notMem_quoted 34 hrest
    · split
      · refine ⟨nofun, fun field behind h => ?_⟩
        cases h
        exact zero_notMem_quoted 62 hrest
      · split
        · split
          · refine ⟨fun next h => ?_, nofun⟩
            cases h
            exact zero_notMem_quoted 41 hrest
          · exact ⟨nofun, nofun⟩
        · refine ⟨nofun, fun field behind h => ?_⟩
          rw [wordItem, List.span_eq_takeWhile_dropWhile] at h
          cases h
          exact fun hmem => zero_notMem_dropWhile hfrontZero ((List.drop_sublist 1 _).mem hmem)

/-- What is behind a field of a text. -/
theorem lex_behind (hzero : (0 : UInt8) ∉ text) {before : Bytes} {field : Item}
    {behind : Bytes × Bytes} (h : lex (before, text) = .item field behind) :
    behind.2.length < text.length ∧ (0 : UInt8) ∉ behind.2 := by
  have hscan := htNextFieldIn_text hzero before
  rw [h] at hscan
  have hlength := (htNextFieldIn_length hscan).2 nofun
  rw [List.length_append, List.length_append] at hlength
  refine ⟨by simpa using hlength, ?_⟩
  let zeroFree (lexed : Lexed) : Prop :=
    ∀ field behind, lexed = .item field behind → (0 : UInt8) ∉ behind.2
  have hmore (s next : Bytes × Bytes) (hs : (0 : UInt8) ∉ s.2) (hnext : lexTurn s = .more next) :
      (0 : UInt8) ∉ next.2 := (lexTurn_zero hs).1 next hnext
  have hstop (s : Bytes × Bytes) (lexed : Lexed) (hs : (0 : UInt8) ∉ s.2)
      (hlexed : lexTurn s = .stop lexed) : zeroFree lexed := by
    intro field behind hitem
    rw [hitem] at hlexed
    exact (lexTurn_zero hs).2 field behind hlexed
  exact loopTotal_rule lexTurn_shrinks hmore hstop (show (0 : UInt8) ∉ (before, text).2 from hzero)
    field behind h

/-- A field without what is known about its ends. -/
def Lexed.front : Lexed → Option (Bytes × Bytes)
  | .ended => none
  | .opened => none
  | .item field behind => some (field.text, behind.2)

theorem fieldTurn_lexTurn (before text : Bytes) (hzero : (0 : UInt8) ∉ text) :
    fieldTurn text =
      match lexTurn (before, text) with
      | .more next => .more next.2
      | .stop .opened => .more []
      | .stop lexed => .stop lexed.front := by
  have hfrontZero : (0 : UInt8) ∉ text.dropWhile isFieldSeparator := zero_notMem_dropWhile hzero
  unfold fieldTurn lexTurn
  dsimp only
  cases hfront : text.dropWhile isFieldSeparator with
  | nil => rfl
  | cons c rest =>
    rw [hfront] at hfrontZero
    have hrest : (0 : UInt8) ∉ rest := fun h => hfrontZero (by simp [h])
    dsimp only
    by_cases hquote : c = 34
    · simp only [if_pos hquote]
      rfl
    · by_cases hangle : c = 60
      · simp only [if_neg hquote, if_pos hangle]
        rfl
      · by_cases hcomment : c = 40
        · simp only [if_neg hquote, if_neg hangle, if_pos hcomment]
          rcases quotedField_cases 41 hrest with ⟨hclosed, -, -⟩ | ⟨hopen, hall, -⟩
          · rw [if_pos hclosed]
          · rw [hopen, hall]
            rfl
        · have hword : ¬ isFieldSeparator c := by
            have hhead := List.head?_dropWhile_not isFieldSeparator text
            rw [hfront] at hhead
            simpa using hhead
          have hfield : List.takeWhile (fun c => ¬ isFieldSeparator c) (c :: rest) =
              c :: rest.takeWhile fun c => ¬ isFieldSeparator c :=
            List.takeWhile_cons_of_pos (by simp [hword])
          have hbehind : List.dropWhile (fun c => ¬ isFieldSeparator c) (c :: rest) =
              rest.dropWhile fun c => ¬ isFieldSeparator c :=
            List.dropWhile_cons_of_pos (by simp [hword])
          simp only [wordItem, List.span_eq_takeWhile_dropWhile, if_neg hquote, if_neg hangle,
            if_neg hcomment, Lexed.front, hfield, hbehind]

/-- The text function finds the same fields; an open comment is the end for it. -/
theorem htNextField_lex (hzero : (0 : UInt8) ∉ text) (before : Bytes) :
    htNextField text = (lex (before, text)).front := by
  induction h : text.length using Nat.strongRecOn generalizing text before with
  | ind n ih =>
    have hfront := fieldTurn_lexTurn before text hzero
    unfold htNextField lex
    cases hturn : lexTurn (before, text) with
    | more next =>
      rw [hturn] at hfront
      have hshort : next.2.length < n := h ▸ lexTurn_shrinks _ next hturn
      rw [loopTotal_more _ hfront, loopTotal_more _ hturn]
      exact ih _ hshort ((lexTurn_zero hzero).1 next hturn) next.1 rfl
    | stop lexed =>
      rw [hturn] at hfront
      rw [loopTotal_stop _ hturn]
      cases lexed with
      | ended => exact loopTotal_stop _ hfront
      | opened =>
        rw [loopTotal_more _ hfront]
        exact loopTotal_stop _ rfl
      | item field behind => exact loopTotal_stop _ hfront

end Agreement

end LibEst.Client.FieldScan
