import LibEst.Inet
import LibEst.Base64

/-! When a name of a certificate is the name of a host: case does not matter, and a star
in the left-most label stands for one or more characters of the host's. -/
namespace LibEst.Client.HostNames

open LibEst.Inet LibEst.Lib.ByteString

def star : UInt8 := 42
def dot : UInt8 := 46

/-- Only the letters of ASCII have a case. -/
def rawToupper (c : UInt8) : UInt8 := if 97 ≤ c ∧ c ≤ 122 then c - 32 else c

section Functions

def rawEqual : Bytes → Bytes → Bool
  | a :: first, b :: second => rawToupper a = rawToupper b && rawEqual first second
  | [], [] => true
  | _, _ => false

/-- The characters are compared as long as there are some and `max` allows for it. -/
def rawNequal : Bytes → Bytes → Nat → Bool
  | a :: first, b :: second, max + 1 =>
      rawToupper a = rawToupper b && rawNequal first second max
  | _, _, 0 => true
  | [], [], _ + 1 => true
  | _, _, _ + 1 => false

/-- The address that a text is the literal of; the first family is tried first. -/
def hostAddress (hostname : Bytes) : Option Bytes :=
  match inetPton4 hostname with
  | some addr => some addr.toList
  | none => (inetPton6 hostname).map Vector.toList

def estClientHostmatch (hostname pattern : Bytes) : Bool :=
  let patternLabel := pattern.takeWhile (· ≠ dot)
  let patternLabelEnd := pattern.dropWhile (· ≠ dot)
  let hostLabel := hostname.takeWhile (· ≠ dot)
  let hostLabelEnd := hostname.dropWhile (· ≠ dot)
  let prefixlen := (pattern.takeWhile (· ≠ star)).length
  let suffixlen := patternLabel.length - (prefixlen + 1)
  if star ∉ pattern then rawEqual pattern hostname
  else if (inetPton4 hostname).isSome then false
  else if (inetPton6 hostname).isSome then false
  else if patternLabelEnd = [] ∨ dot ∉ patternLabelEnd.tail ∨ patternLabel.length < prefixlen ∨
      rawNequal pattern (ascii "xn--") 4 then
    rawEqual pattern hostname
  else if hostLabelEnd = [] ∨ ¬ rawEqual patternLabelEnd hostLabelEnd then false
  else if hostLabel.length < patternLabel.length then false
  else
    rawNequal pattern hostname prefixlen &&
      rawNequal (pattern.drop (prefixlen + 1)) (hostname.drop (hostLabel.length - suffixlen))
        suffixlen

def estClientCertHostcheck (matchPattern hostname : Bytes) : Bool :=
  if matchPattern = [] ∨ hostname = [] then false
  else if rawEqual hostname matchPattern then true
  else estClientHostmatch hostname matchPattern

end Functions

section Comparison

/-- The same text but for the case of letters. -/
def SameText (a b : Bytes) : Prop := a.map rawToupper = b.map rawToupper

instance (a b : Bytes) : Decidable (SameText a b) := inferInstanceAs (Decidable (_ = _))

theorem SameText.length {a b : Bytes} (h : SameText a b) : a.length = b.length := by
  simpa using congrArg List.length h

theorem SameText.symm {a b : Bytes} (h : SameText a b) : SameText b a := Eq.symm h

theorem sameText_append {a b c d : Bytes} (h : a.length = b.length) :
    SameText (a ++ c) (b ++ d) ↔ SameText a b ∧ SameText c d := by
  unfold SameText
  rw [List.map_append, List.map_append]
  constructor
  · exact fun hsame => List.append_inj hsame (by simpa using h)
  · rintro ⟨hfront, hback⟩
    rw [hfront, hback]

theorem rawToupper_eq_dot (c : UInt8) : rawToupper c = rawToupper dot ↔ c = dot := by
  unfold rawToupper dot
  constructor
  · intro h
    split at h
    · rename_i hlower
      have hval := congrArg UInt8.toNat h
      have hlow : 97 ≤ c.toNat := hlower.1
      have hhigh : c.toNat ≤ 122 := hlower.2
      rw [UInt8.toNat_sub_of_le _ _ (UInt8.le_iff_toNat_le.mpr (by simp; omega))] at hval
      simp at hval
      omega
    · simpa using h
  · rintro rfl
    rfl

theorem SameText.dot_mem {a b : Bytes} (h : SameText a b) : dot ∈ a ↔ dot ∈ b := by
  have hmem (text : Bytes) : dot ∈ text ↔ rawToupper dot ∈ text.map rawToupper := by
    rw [List.mem_map]
    constructor
    · exact fun hdot => ⟨dot, hdot, rfl⟩
    · rintro ⟨c, hc, hupper⟩
      exact (rawToupper_eq_dot c).mp hupper ▸ hc
  rw [hmem a, hmem b, h]

theorem rawEqual_iff (a b : Bytes) : rawEqual a b = true ↔ SameText a b := by
  unfold SameText
  induction a generalizing b with
  | nil => cases b <;> simp [rawEqual]
  | cons x a ih =>
    cases b with
    | nil => simp [rawEqual]
    | cons y b => simp [rawEqual, ih]

theorem rawNequal_iff {a b : Bytes} {n : Nat} (ha : n ≤ a.length) (hb : n ≤ b.length) :
    rawNequal a b n = true ↔ SameText (a.take n) (b.take n) := by
  unfold SameText
  induction n generalizing a b with
  | zero => simp [rawNequal]
  | succ n ih =>
    cases a with
    | nil => simp at ha
    | cons x a =>
      cases b with
      | nil => simp at hb
      | cons y b => simp [rawNequal, ih (Nat.le_of_succ_le_succ ha) (Nat.le_of_succ_le_succ hb)]

/-- A text that is too short for the comparison is different. -/
theorem rawNequal_xn (pattern : Bytes) :
    rawNequal pattern (ascii "xn--") 4 = true ↔ SameText (pattern.take 4) (ascii "xn--") := by
  by_cases hlength : 4 ≤ pattern.length
  · rw [rawNequal_iff hlength (by decide)]
    rfl
  · have hshort (a b : Bytes) (n : Nat) (hab : a.length < b.length) (hb : b.length = n) :
        rawNequal a b n = false := by
      induction n generalizing a b with
      | zero => omega
      | succ n ih =>
        cases b with
        | nil => cases hb
        | cons y b =>
          cases a with
          | nil => rfl
          | cons x a =>
            rw [rawNequal, ih a b (Nat.lt_of_succ_lt_succ hab) (Nat.succ.inj hb), Bool.and_false]
    have hxn : (ascii "xn--").length = 4 := by decide
    rw [hshort pattern (ascii "xn--") 4 (by omega) hxn]
    refine iff_of_false Bool.false_ne_true fun hsame => ?_
    have hlengths := hsame.length
    rw [List.length_take, hxn] at hlengths
    omega

end Comparison

section Wildcards

/-- The parts of a pattern with a wildcard: the label around the first star, and the
other labels, of which there are at least two. -/
structure Pattern (pattern pre suf tail : Bytes) : Prop where
  text : pattern = pre ++ star :: (suf ++ dot :: tail)
  pre : ∀ c ∈ pre, c ≠ star ∧ c ≠ dot
  suf : dot ∉ suf
  tail : dot ∈ tail
  noIdn : ¬ SameText (pattern.take 4) (ascii "xn--")

/-- The first star of the pattern stands for one or more characters of the first label. -/
def Wild (hostname pattern : Bytes) : Prop :=
  ∃ pre suf tail pre' mid suf' tail', Pattern pattern pre suf tail ∧
    hostname = pre' ++ (mid ++ (suf' ++ dot :: tail')) ∧ mid ≠ [] ∧ dot ∉ mid ∧
    SameText pre pre' ∧ SameText suf suf' ∧ SameText tail tail'

variable {hostname pattern pre suf tail : Bytes}

theorem takeWhile_append_stop {front : Bytes} {c : UInt8} (h : c ∉ front) (rest : Bytes) :
    (front ++ c :: rest).takeWhile (· ≠ c) = front ∧
      (front ++ c :: rest).dropWhile (· ≠ c) = c :: rest := by
  have hfront : ∀ x ∈ front, decide (x ≠ c) = true :=
    fun x hx => decide_eq_true fun heq => h (heq ▸ hx)
  constructor
  · rw [List.takeWhile_append_of_pos hfront]
    simp
  · rw [List.dropWhile_append_of_pos hfront]
    simp

/-- What the function looks for in a pattern of that form. -/
theorem Pattern.parts (p : Pattern pattern pre suf tail) :
    pattern.takeWhile (· ≠ dot) = pre ++ star :: suf ∧
      pattern.dropWhile (· ≠ dot) = dot :: tail ∧
      pattern.takeWhile (· ≠ star) = pre ∧ star ∈ pattern := by
  have hdot : dot ∉ pre ++ star :: suf := by
    intro h
    rw [List.mem_append, List.mem_cons] at h
    rcases h with h | h | h
    · exact (p.pre dot h).2 rfl
    · exact absurd h (by decide)
    · exact p.suf h
  have hsplit : pattern = (pre ++ star :: suf) ++ dot :: tail := by
    rw [p.text]
    simp
  have hlabel := takeWhile_append_stop hdot tail
  rw [← hsplit] at hlabel
  have hstar := (@takeWhile_append_stop pre star (fun h => (p.pre star h).1 rfl)
    (suf ++ dot :: tail)).1
  rw [← p.text] at hstar
  exact ⟨hlabel.1, hlabel.2, hstar, by rw [p.text]; simp⟩

theorem Pattern.unique {pre' suf' tail' : Bytes} (p : Pattern pattern pre suf tail)
    (other : Pattern pattern pre' suf' tail') : pre = pre' ∧ suf = suf' ∧ tail = tail' := by
  obtain ⟨hlabel, hend, hpre, -⟩ := p.parts
  obtain ⟨hlabel', hend', hpre', -⟩ := other.parts
  rw [hlabel] at hlabel'
  rw [hend] at hend'
  rw [hpre] at hpre'
  subst hpre'
  exact ⟨rfl, (List.cons.inj (List.append_cancel_left hlabel')).2, (List.cons.inj hend').2⟩

/-- A pattern is read as one with a wildcard just where it has that form. -/
theorem pattern_iff (hstar : star ∈ pattern) :
    ¬ (pattern.dropWhile (· ≠ dot) = [] ∨ dot ∉ (pattern.dropWhile (· ≠ dot)).tail ∨
        (pattern.takeWhile (· ≠ dot)).length < (pattern.takeWhile (· ≠ star)).length ∨
        rawNequal pattern (ascii "xn--") 4 = true) ↔
      ∃ pre suf tail, Pattern pattern pre suf tail := by
  rw [rawNequal_xn]
  constructor
  · intro h
    push Not at h
    obtain ⟨hend, htail, hlength, hidn⟩ := h
    obtain ⟨pre, post, hpattern, hpre⟩ := List.eq_append_cons_of_mem hstar
    have hdot : dot ∈ pattern := by
      by_contra hnone
      exact hend (List.dropWhile_eq_nil_iff.mpr fun c hc =>
        decide_eq_true fun heq => hnone (heq ▸ hc))
    obtain ⟨label, tail, hlabels, hlabel⟩ := List.eq_append_cons_of_mem hdot
    have hparts := takeWhile_append_stop hlabel tail
    have hfront := (takeWhile_append_stop hpre post).1
    rw [← hlabels] at hparts
    rw [← hpattern] at hfront
    rw [hparts.1, hfront] at hlength
    rw [hparts.2, List.tail_cons] at htail
    have hsame : pre ++ star :: post = label ++ dot :: tail := by rw [← hpattern, ← hlabels]
    have hinside : ∃ rest, label = pre ++ rest ∧ star :: post = rest ++ dot :: tail := by
      cases List.append_eq_append_iff.mp hsame with
      | inl h => exact h
      | inr h =>
        obtain ⟨rest, hrest, hpost⟩ := h
        have hempty : rest = [] := by
          rw [hrest, List.length_append] at hlength
          exact List.length_eq_zero_iff.mp (by omega)
        subst hempty
        exact ⟨[], by simpa using hrest.symm, by simpa using hpost.symm⟩
    obtain ⟨rest, hrest, hpost⟩ := hinside
    cases rest with
    | nil => exact absurd (List.cons.inj hpost).1 (by decide)
    | cons c suf =>
      obtain ⟨rfl, hpost⟩ := List.cons.inj hpost
      rw [hrest, List.mem_append, List.mem_cons, not_or, not_or] at hlabel
      refine ⟨pre, suf, tail, ⟨by rw [hpattern, hpost]; rfl, ?_, hlabel.2.2, htail, hidn⟩⟩
      exact fun c hc => ⟨fun heq => hpre (heq ▸ hc), fun heq => hlabel.1 (heq ▸ hc)⟩
  · rintro ⟨pre, suf, tail, p⟩
    obtain ⟨hlabel, hend, hpre, -⟩ := p.parts
    rw [hlabel, hend, hpre]
    simp only [List.tail_cons, List.length_append, List.length_cons, not_or]
    exact ⟨by simp, not_not.mpr p.tail, by omega, p.noIdn⟩

/-- The comparisons behind the pattern, for a host that begins with a label. -/
theorem Pattern.compares_label (p : Pattern pattern pre suf tail) {label : Bytes} (rest : Bytes)
    (hlength : (pre ++ star :: suf).length ≤ label.length) :
    (rawNequal pattern (label ++ rest) pre.length &&
        rawNequal (pattern.drop (pre.length + 1))
          ((label ++ rest).drop (label.length - suf.length)) suf.length) = true ↔
      SameText pre (label.take pre.length) ∧
        SameText suf (label.drop (label.length - suf.length)) := by
  rw [List.length_append, List.length_cons] at hlength
  have hdrop : pattern.drop (pre.length + 1) = suf ++ dot :: tail := by
    rw [p.text, ← List.drop_drop, List.drop_left]
    rfl
  have htake : pattern.take pre.length = pre := by rw [p.text, List.take_left]
  have hback : (label.drop (label.length - suf.length)).length = suf.length := by
    rw [List.length_drop]
    omega
  have hfrontLength : pre.length ≤ pattern.length := by
    rw [p.text, List.length_append]
    omega
  rw [Bool.and_eq_true, rawNequal_iff hfrontLength (by rw [List.length_append]; omega), htake,
    List.take_append_of_le_length (by omega), hdrop, List.drop_append_of_le_length (by omega),
    rawNequal_iff (by rw [List.length_append]; omega) (by rw [List.length_append]; omega),
    List.take_left, List.take_append_of_le_length (Nat.le_of_eq hback.symm),
    List.take_of_length_le (Nat.le_of_eq hback)]

/-- The comparisons say that the parts of the pattern are those of the host. -/
theorem Pattern.compares (p : Pattern pattern pre suf tail) :
    (¬ (hostname.dropWhile (· ≠ dot) = [] ∨
          ¬ rawEqual (dot :: tail) (hostname.dropWhile (· ≠ dot)) = true) ∧
        ¬ (hostname.takeWhile (· ≠ dot)).length < (pre ++ star :: suf).length ∧
        (rawNequal pattern hostname pre.length &&
          rawNequal (pattern.drop (pre.length + 1))
            (hostname.drop ((hostname.takeWhile (· ≠ dot)).length - suf.length)) suf.length) =
              true) ↔
      ∃ pre' mid suf' tail', hostname = pre' ++ (mid ++ (suf' ++ dot :: tail')) ∧ mid ≠ [] ∧
        dot ∉ mid ∧ SameText pre pre' ∧ SameText suf suf' ∧ SameText tail tail' := by
  constructor
  · intro h
    obtain ⟨hend, hlength, hboth⟩ := h
    push Not at hend
    obtain ⟨hne, htails⟩ := hend
    have hdot : dot ∈ hostname := by
      by_contra hnone
      exact hne (List.dropWhile_eq_nil_iff.mpr fun c hc =>
        decide_eq_true fun heq => hnone (heq ▸ hc))
    obtain ⟨label, tail', rfl, hlabel⟩ := List.eq_append_cons_of_mem hdot
    obtain ⟨hfront, hback⟩ := takeWhile_append_stop hlabel tail'
    rw [hback, rawEqual_iff] at htails
    rw [hfront] at hlength hboth
    obtain ⟨hpre, hsuf⟩ := (p.compares_label _ (Nat.le_of_not_lt hlength)).mp hboth
    rw [List.length_append, List.length_cons] at hlength
    have hsplit : label = label.take pre.length ++
        ((label.drop pre.length).take (label.length - suf.length - pre.length) ++
          label.drop (label.length - suf.length)) := by
      have hrest : label.drop (label.length - suf.length) =
          (label.drop pre.length).drop (label.length - suf.length - pre.length) := by
        rw [List.drop_drop]
        congr 1
        omega
      rw [hrest, List.take_append_drop, List.take_append_drop]
    refine ⟨label.take pre.length,
      (label.drop pre.length).take (label.length - suf.length - pre.length),
      label.drop (label.length - suf.length), tail', ?_, ?_, ?_, hpre, hsuf, ?_⟩
    · nth_rewrite 1 [hsplit]
      simp only [List.append_assoc]
    · apply List.ne_nil_of_length_pos
      rw [List.length_take, List.length_drop]
      omega
    · exact fun h => hlabel (List.mem_of_mem_drop (List.mem_of_mem_take h))
    · exact ((sameText_append (a := [dot]) (b := [dot]) rfl).mp htails).2
  · rintro ⟨pre', mid, suf', tail', hhost, hmid, hdot, hpre, hsuf, htail⟩
    have hlabel : dot ∉ pre' ++ (mid ++ suf') := by
      rw [List.mem_append, List.mem_append, ← hpre.dot_mem, ← hsuf.dot_mem]
      exact fun h => h.elim (fun h => (p.pre dot h).2 rfl) fun h => h.elim hdot p.suf
    have hsplit : hostname = (pre' ++ (mid ++ suf')) ++ dot :: tail' := by
      rw [hhost]
      simp
    obtain ⟨hfront, hback⟩ := takeWhile_append_stop hlabel tail'
    have hpreLength := hpre.length
    have hsufLength := hsuf.length
    have hmidLength := List.length_pos_iff.mpr hmid
    have hlengths : (pre ++ star :: suf).length ≤ (pre' ++ (mid ++ suf')).length := by
      simp only [List.length_append, List.length_cons]
      omega
    have hlast : (pre' ++ (mid ++ suf')).length - suf.length = (pre' ++ mid).length := by
      simp only [List.length_append]
      omega
    rw [hsplit, hfront, hback, rawEqual_iff, p.compares_label _ hlengths, hlast]
    refine ⟨?_, Nat.not_lt.mpr hlengths, ?_, ?_⟩
    · push Not
      exact ⟨by simp, (sameText_append (a := [dot]) (b := [dot]) rfl).mpr ⟨rfl, htail⟩⟩
    · rw [hpreLength, List.take_left]
      exact hpre
    · rw [← List.append_assoc, List.drop_left]
      exact hsuf

theorem hostAddress_none :
    hostAddress hostname = none ↔
      (inetPton4 hostname).isSome = false ∧ (inetPton6 hostname).isSome = false := by
  unfold hostAddress
  cases inetPton4 hostname <;> cases inetPton6 hostname <;> simp

/-- A pattern without a star, or one that is not read as a wildcard, is compared as it is. -/
theorem not_wild_of_notMem (h : star ∉ pattern) : ¬ Wild hostname pattern := by
  rintro ⟨pre, suf, tail, pre', mid, suf', tail', p, -⟩
  exact h p.parts.2.2.2

theorem estClientHostmatch_iff (hne : ¬ SameText hostname pattern) :
    estClientHostmatch hostname pattern = true ↔
      hostAddress hostname = none ∧ Wild hostname pattern := by
  have hdiffer : rawEqual pattern hostname = false :=
    Bool.eq_false_iff.mpr fun h => hne ((rawEqual_iff _ _).mp h).symm
  unfold estClientHostmatch
  dsimp only
  by_cases hstar : star ∈ pattern
  · rw [if_neg (not_not.mpr hstar), hostAddress_none]
    by_cases h4 : (inetPton4 hostname).isSome = true
    · rw [if_pos h4]
      simp [h4]
    · rw [if_neg h4]
      by_cases h6 : (inetPton6 hostname).isSome = true
      · rw [if_pos h6]
        simp [h6]
      · rw [if_neg h6, and_iff_right ⟨by simpa using h4, by simpa using h6⟩]
        by_cases hpattern : ∃ pre suf tail, Pattern pattern pre suf tail
        · rw [if_neg ((pattern_iff hstar).mpr hpattern)]
          obtain ⟨pre, suf, tail, p⟩ := hpattern
          obtain ⟨hlabel, hend, hpre, -⟩ := p.parts
          have hsuffix : (pre ++ star :: suf).length - (pre.length + 1) = suf.length := by
            rw [List.length_append, List.length_cons]
            omega
          have hwild : Wild hostname pattern ↔ ∃ pre' mid suf' tail',
              hostname = pre' ++ (mid ++ (suf' ++ dot :: tail')) ∧ mid ≠ [] ∧ dot ∉ mid ∧
              SameText pre pre' ∧ SameText suf suf' ∧ SameText tail tail' := by
            constructor
            · intro h
              obtain ⟨preOther, sufOther, tailOther, pre', mid, suf', tail', other, hhost⟩ := h
              obtain ⟨rfl, rfl, rfl⟩ := p.unique other
              exact ⟨pre', mid, suf', tail', hhost⟩
            · intro h
              obtain ⟨pre', mid, suf', tail', hhost⟩ := h
              exact ⟨pre, suf, tail, pre', mid, suf', tail', p, hhost⟩
          rw [hlabel, hend, hpre, hsuffix, hwild, ← p.compares]
          split_ifs with hfirst hsecond
          · exact iff_of_false id fun h => h.1 hfirst
          · exact iff_of_false id fun h => h.2.1 hsecond
          · exact ⟨fun h => ⟨hfirst, hsecond, h⟩, fun h => h.2.2⟩
        · rw [if_pos (not_not.mp ((pattern_iff hstar).not.mpr hpattern)), hdiffer]
          refine iff_of_false Bool.false_ne_true ?_
          rintro ⟨pre, suf, tail, pre', mid, suf', tail', p, -⟩
          exact hpattern ⟨pre, suf, tail, p⟩
  · rw [if_pos hstar, hdiffer]
    exact iff_of_false Bool.false_ne_true fun h => not_wild_of_notMem hstar h.2

/-- A name is accepted for a host that has the same text, or that it is a wildcard for,
though not for an address. -/
theorem estClientCertHostcheck_iff :
    estClientCertHostcheck pattern hostname = true ↔
      pattern ≠ [] ∧ hostname ≠ [] ∧
        (SameText hostname pattern ∨ (hostAddress hostname = none ∧ Wild hostname pattern)) := by
  unfold estClientCertHostcheck
  by_cases hempty : pattern = [] ∨ hostname = []
  · rw [if_pos hempty]
    refine iff_of_false Bool.false_ne_true fun h => ?_
    exact hempty.elim h.1 h.2.1
  · rw [if_neg hempty]
    push Not at hempty
    rw [and_iff_right hempty.1, and_iff_right hempty.2]
    by_cases hsame : SameText hostname pattern
    · rw [if_pos ((rawEqual_iff _ _).mpr hsame)]
      exact iff_of_true rfl (Or.inl hsame)
    · rw [if_neg ((rawEqual_iff _ _).not.mpr hsame), estClientHostmatch_iff hsame,
        or_iff_right hsame]

end Wildcards

end LibEst.Client.HostNames
