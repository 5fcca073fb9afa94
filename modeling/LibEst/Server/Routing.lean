import LibEst.Server.Uri

/-! The way from the path of a request to its operation. The path is split by the
`uriparser` library; what becomes of the segments is decided here. -/
namespace LibEst.Server.Routing

open LibEst.Basic LibEst.Lib.ByteString LibEst.SafeStr LibEst.Server.AuthHeader
open LibEst.Client.Http LibEst.Server.HttpMessage LibEst.Server.Uri

def estMaxPathSegmentLen : Nat := 128

section Uriparser

/-- A segment of a path and the text of the URI behind it. -/
structure UriPathSegment where
  text : Bytes
  behind : Bytes
  deriving DecidableEq

/-- `uriParseUriA` on a text; null where it refuses it. Both ends of an empty range point
at a text of the library's own. -/
structure UriParser where
  parse : Bytes → Option (List UriPathSegment)
  emptyRange : Bytes

def isDelimiter (c : UInt8) : Bool := c = 47 ∨ c = 63 ∨ c = 35

def segmentsFrom (text : Bytes) : Bytes → List UriPathSegment
  | [] => [⟨text, []⟩]
  | c :: rest =>
      if c = 47 then ⟨text, c :: rest⟩ :: segmentsFrom [] rest
      else if isDelimiter c then [⟨text, c :: rest⟩]
      else segmentsFrom (text ++ [c]) rest

/-- The segments of the path behind its first slash, up to a query or a fragment. -/
def segmentsOf (rest : Bytes) : List UriPathSegment :=
  match rest with
  | [] => []
  | c :: _ => if isDelimiter c then [] else segmentsFrom [] rest

/-- The characters of a segment that need no escape. -/
def pchar (c : UInt8) : Bool :=
  (97 ≤ c ∧ c ≤ 122) ∨ (65 ≤ c ∧ c ≤ 90) ∨ (48 ≤ c ∧ c ≤ 57) ∨ c ∈ ascii "-._~!$&'()*+,;=:@"

/-- Segments of a path with slashes between them, as the grammar of URIs has them. -/
def pathText : Bytes → Bool
  | [] => true
  | c :: rest =>
      if c = 37 then
        match rest with
        | a :: b :: more => isxdigit a && isxdigit b && pathText more
        | _ => false
      else (pchar c ∨ c = 47) && pathText rest

/-- What the library promises of a path with one slash in front, and of an asterisk. -/
structure UriParser.Lawful (U : UriParser) : Prop where
  segments : ∀ rest segs, rest.head? ≠ some 47 → U.parse (47 :: rest) = some segs →
    segs = segmentsOf rest
  accepts : ∀ rest, rest.head? ≠ some 47 → 63 ∉ rest → 35 ∉ rest →
    ((U.parse (47 :: rest)).isSome ↔ pathText rest)
  asterisk : ∀ segs, U.parse (ascii "*") = some segs → segs = [⟨ascii "*", []⟩]

end Uriparser

section Operations

variable (brski : Bool)

/-- The names of the operations, some of which only a build with BRSKI has. -/
def operations : List (String × EstOperation) :=
  [("cacerts", .cacerts), ("csrattrs", .csrattrs), ("simpleenroll", .simpleEnroll),
    ("simplereenroll", .simpleReenroll), ("serverkeygen", .serverKeygen)] ++
  if brski then [("requestvoucher", .brskiReqVoucher), ("voucher_status", .brskiVoucherStatus),
    ("enrollstatus", .brskiEnrollStatus)]
  else []

/-- Null for `EST_OP_MAX`. -/
def estParseOperation (opPath : Bytes) : Option EstOperation :=
  ((operations brski).find? fun entry => strcaseEq opPath entry.1).map Prod.snd

end Operations

section ParseUri

variable (U : UriParser) (brski : Bool)

/-- Memory from the first byte of a segment on. -/
def UriPathSegment.memory (seg : UriPathSegment) (beyond : Bytes) : Bytes :=
  if seg.text = [] then U.emptyRange ++ [0] else seg.text ++ seg.behind ++ 0 :: beyond

/-- Memory from the end of a segment on. -/
def UriPathSegment.afterLast (seg : UriPathSegment) (beyond : Bytes) : Bytes :=
  if seg.text = [] then U.emptyRange ++ [0] else seg.behind ++ 0 :: beyond

/-- What is passed back; the operation is null where it is `EST_OP_MAX` or not set. -/
structure ParsedUri where
  rv : EstError
  operation : Option EstOperation
  pathSeg : Option Bytes
  deriving DecidableEq

def invalidPath : ParsedUri :=
  { rv := .httpInvalidPathSegment, operation := none, pathSeg := none }

/-- The segment behind the prefix: an operation, or a segment with an operation behind it. -/
def parseThird (third : UriPathSegment) (beyond : Bytes) : ParsedUri :=
  let curSegLen := third.text.length
  if estMaxPathSegmentLen < curSegLen then invalidPath
  else
    let atEnd := (third.afterLast U beyond).head? = some 0
    let segment :=
      if atEnd then (cString (third.memory U beyond)).take estMaxPathSegmentLen else third.text
    match estParseOperation brski segment with
    | none =>
        match estParseOperation brski (cString ((third.memory U beyond).drop (curSegLen + 1))) with
        | none => { rv := .httpBadReq, operation := none, pathSeg := none }
        | some operation =>
            { rv := .none, operation := some operation, pathSeg := some (segment.take curSegLen) }
    | some operation =>
        if atEnd then { rv := .none, operation := some operation, pathSeg := none } else invalidPath

/-- `est_parse_uri` on a path and the memory behind the zero that ends it. The outer null
is the null pointer at the end of the list of segments, read through. -/
def estParseUri (uri beyond : Bytes) : Option ParsedUri :=
  match U.parse uri with
  | none => some invalidPath
  | some [] => some { rv := .none, operation := none, pathSeg := none }
  | some (first :: segs) =>
      if ¬ ascii ".well-known" <+: first.memory U beyond then some invalidPath
      else
        match segs with
        | [] => none
        | second :: segs =>
            if ¬ ascii "est" <+: second.memory U beyond then some invalidPath
            else
              match segs with
              | [] => none
              | third :: _ => some (parseThird U brski third beyond)

end ParseUri

section Routes

variable (brski : Bool)

def IsOperation (text : Bytes) (operation : EstOperation) : Prop :=
  ∃ name, (name, operation) ∈ operations brski ∧ text.map tolower = (ascii name).map tolower

/-- A segment that may stand before an operation. -/
structure IsSegment (seg : Bytes) : Prop where
  nonempty : seg ≠ []
  short : seg.length ≤ estMaxPathSegmentLen
  slashless : 47 ∉ seg
  text : pathText seg
  other : ∀ operation, ¬ IsOperation brski seg operation

/-- The two forms that a path of a request has. -/
inductive Routes : Bytes → EstOperation → Option Bytes → Prop
  | bare {text : Bytes} {operation : EstOperation} (h : IsOperation brski text operation) :
      Routes (ascii "/.well-known/est/" ++ text) operation none
  | labelled {seg text : Bytes} {operation : EstOperation} (hseg : IsSegment brski seg)
      (h : IsOperation brski text operation) :
      Routes (ascii "/.well-known/est/" ++ (seg ++ 47 :: text)) operation (some seg)

end Routes

section OperationNames

variable {brski : Bool}

theorem operations_subset : ∀ entry ∈ operations brski, entry ∈ operations true := by
  cases brski
  · decide
  · exact fun entry hentry => hentry

/-- No two operations have one name. -/
theorem operations_injective {first second : String × EstOperation}
    (hfirst : first ∈ operations brski) (hsecond : second ∈ operations brski)
    (h : (ascii first.1).map tolower = (ascii second.1).map tolower) : first = second := by
  have hall : ∀ entry ∈ operations true, ∀ other ∈ operations true,
      (ascii entry.1).map tolower = (ascii other.1).map tolower → entry = other := by
    decide +kernel
  exact hall first (operations_subset first hfirst) second (operations_subset second hsecond) h

theorem strcaseEq_iff {text : Bytes} (h : text ≠ []) (name : String) :
    strcaseEq text name ↔ text.map tolower = (ascii name).map tolower := by
  rw [strcaseEq, decide_eq_true_eq]
  exact or_iff_right h

theorem estParseOperation_eq_some_iff {text : Bytes} (h : text ≠ []) {operation : EstOperation} :
    estParseOperation brski text = some operation ↔ IsOperation brski text operation := by
  rw [estParseOperation, Option.map_eq_some_iff]
  constructor
  · intro hfound
    obtain ⟨entry, hentry, rfl⟩ := hfound
    have hname := List.find?_some hentry
    exact ⟨entry.1, List.mem_of_find?_eq_some hentry, (strcaseEq_iff h _).mp hname⟩
  · intro hop
    obtain ⟨name, hmem, hname⟩ := hop
    cases hfind : (operations brski).find? fun entry => strcaseEq text entry.1 with
    | none =>
      have hnot := List.find?_eq_none.mp hfind (name, operation) hmem
      exact absurd ((strcaseEq_iff h name).mpr hname) hnot
    | some entry =>
      have hequal := List.find?_some hfind
      have hentry := (strcaseEq_iff h entry.1).mp hequal
      have hsame := operations_injective (List.mem_of_find?_eq_some hfind) hmem
        (hentry.symm.trans hname)
      exact ⟨entry, rfl, congrArg Prod.snd hsame⟩

theorem estParseOperation_eq_none_iff {text : Bytes} (h : text ≠ []) :
    estParseOperation brski text = none ↔ ∀ operation, ¬ IsOperation brski text operation := by
  rw [Option.eq_none_iff_forall_ne_some]
  exact forall_congr' fun operation => not_congr (estParseOperation_eq_some_iff h)

/-- An empty text counts as the first of the operations. -/
theorem estParseOperation_nil : estParseOperation brski [] = some .cacerts := rfl

theorem pchar_of_tolower {c : UInt8} (h : pchar (tolower c)) : pchar c := by
  rw [tolower] at h
  split at h
  · rename_i hupper
    rw [pchar, decide_eq_true_eq]
    exact Or.inr (Or.inl hupper)
  · exact h

/-- The name of an operation has letters in it, and an underscore at most. -/
theorem IsOperation.text {text : Bytes} {operation : EstOperation}
    (h : IsOperation brski text operation) : text ≠ [] ∧ ∀ c ∈ text, pchar c := by
  obtain ⟨name, hmem, hname⟩ := h
  have hentry : ∀ entry ∈ operations true,
      ascii entry.1 ≠ [] ∧ ∀ c ∈ (ascii entry.1).map tolower, pchar c := by
    decide +kernel
  obtain ⟨hne, hchars⟩ := hentry _ (operations_subset _ hmem)
  constructor
  · intro hnil
    rw [hnil, List.map_nil] at hname
    exact hne (List.map_eq_nil_iff.mp hname.symm)
  · intro c hc
    apply pchar_of_tolower
    apply hchars
    rw [← hname]
    exact List.mem_map_of_mem hc

end OperationNames

section Splitting

theorem segmentsFrom_append {front : Bytes} (hfront : ∀ c ∈ front, ¬ isDelimiter c)
    (text tail : Bytes) : segmentsFrom text (front ++ tail) = segmentsFrom (text ++ front) tail := by
  induction front generalizing text with
  | nil => rw [List.nil_append, List.append_nil]
  | cons c front ih =>
    have hc := hfront c List.mem_cons_self
    have hslash : c ≠ 47 := by
      intro h
      exact hc (by rw [h]; rfl)
    rw [List.cons_append, segmentsFrom, if_neg hslash, if_neg hc,
      ih (fun d hd => hfront d (List.mem_cons_of_mem c hd)), List.append_assoc]
    rfl

/-- Where a segment ends: at the end of the URI, or at a delimiter. -/
def Ends (behind : Bytes) : Prop := behind = [] ∨ ∃ c more, behind = c :: more ∧ isDelimiter c

/-- The first of the segments, and where the others are. -/
theorem segmentsFrom_cases (text rest : Bytes) :
    ∃ front tail, rest = front ++ tail ∧ (∀ c ∈ front, ¬ isDelimiter c) ∧ Ends tail ∧
      ((∃ more, tail = 47 :: more ∧
          segmentsFrom text rest = ⟨text ++ front, tail⟩ :: segmentsFrom [] more) ∨
        segmentsFrom text rest = [⟨text ++ front, tail⟩]) := by
  induction rest generalizing text with
  | nil =>
    refine ⟨[], [], rfl, fun c hc => absurd hc List.not_mem_nil, Or.inl rfl, Or.inr ?_⟩
    rw [List.append_nil]
    rfl
  | cons c rest ih =>
    by_cases hc : isDelimiter c
    · refine ⟨[], c :: rest, rfl, fun c hc => absurd hc List.not_mem_nil,
        Or.inr ⟨c, rest, rfl, hc⟩, ?_⟩
      rw [segmentsFrom, List.append_nil]
      by_cases hslash : c = 47
      · rw [if_pos hslash, hslash]
        exact Or.inl ⟨rest, rfl, rfl⟩
      · rw [if_neg hslash, if_pos hc]
        exact Or.inr rfl
    · have hslash : c ≠ 47 := by
        intro h
        exact hc (by rw [h]; rfl)
      obtain ⟨front, tail, hrest, hfront, htail, hsegs⟩ := ih (text ++ [c])
      refine ⟨c :: front, tail, by rw [hrest, List.cons_append], ?_, htail, ?_⟩
      · intro d hd
        cases List.mem_cons.mp hd with
        | inl heq => rwa [heq]
        | inr hmem => exact hfront d hmem
      · rw [segmentsFrom, if_neg hslash, if_neg hc]
        rwa [List.append_assoc, List.singleton_append] at hsegs

/-- A segment as a split path has it. -/
structure UriPathSegment.Split (seg : UriPathSegment) : Prop where
  free : ∀ c ∈ seg.text, ¬ isDelimiter c
  ends : Ends seg.behind

/-- A segment at the front, and the next one behind a slash. -/
theorem segmentsFrom_cons {rest : Bytes} {seg : UriPathSegment} {more : List UriPathSegment}
    (h : segmentsFrom [] rest = seg :: more) :
    rest = seg.text ++ seg.behind ∧ seg.Split ∧
      ∀ next later, more = next :: later →
        ∃ behind, seg.behind = 47 :: behind ∧ segmentsFrom [] behind = next :: later := by
  obtain ⟨front, tail, hrest, hfront, htail, hsegs⟩ := segmentsFrom_cases [] rest
  rw [h, List.nil_append] at hsegs
  cases hsegs with
  | inl hslash =>
    obtain ⟨behind, hbehind, hsegs⟩ := hslash
    cases hsegs
    exact ⟨hrest, ⟨hfront, htail⟩, fun next later hmore => ⟨behind, hbehind, hmore⟩⟩
  | inr hlast =>
    cases hlast
    exact ⟨hrest, ⟨hfront, htail⟩, fun next later hmore => by cases hmore⟩

theorem split_of_mem {text rest : Bytes} {seg : UriPathSegment}
    (htext : ∀ c ∈ text, ¬ isDelimiter c) (h : seg ∈ segmentsFrom text rest) : seg.Split := by
  induction rest generalizing text with
  | nil =>
    rw [segmentsFrom, List.mem_singleton] at h
    rw [h]
    exact ⟨htext, Or.inl rfl⟩
  | cons c rest ih =>
    rw [segmentsFrom] at h
    split at h
    · rename_i hslash
      cases List.mem_cons.mp h with
      | inl heq =>
        rw [heq, hslash]
        exact ⟨htext, Or.inr ⟨47, rest, rfl, rfl⟩⟩
      | inr hmem => exact ih (fun c hc => absurd hc List.not_mem_nil) hmem
    · split at h
      · rename_i hdelimiter
        rw [List.mem_singleton] at h
        rw [h]
        exact ⟨htext, Or.inr ⟨c, rest, rfl, hdelimiter⟩⟩
      · rename_i hother
        refine ih ?_ h
        intro d hd
        cases List.mem_append.mp hd with
        | inl hmem => exact htext d hmem
        | inr hlast => rwa [List.mem_singleton.mp hlast]

theorem segmentsOf_cons {rest : Bytes} {seg : UriPathSegment} {more : List UriPathSegment}
    (h : segmentsOf rest = seg :: more) : segmentsFrom [] rest = seg :: more := by
  unfold segmentsOf at h
  split at h
  · cases h
  · split at h
    · cases h
    · exact h

/-- The first bytes of a memory are those of a text, up to where the text ends. -/
theorem prefix_append_iff {stop : UInt8 → Prop} {literal text tail : Bytes}
    (hliteral : ∀ c ∈ literal, ¬ stop c) (htail : ∃ c more, tail = c :: more ∧ stop c) :
    literal <+: text ++ tail ↔ literal <+: text := by
  induction literal generalizing text with
  | nil => exact iff_of_true List.nil_prefix List.nil_prefix
  | cons c literal ih =>
    cases text with
    | nil =>
      obtain ⟨d, more, rfl, hd⟩ := htail
      rw [List.nil_append, List.cons_prefix_cons]
      constructor
      · intro h
        rw [h.1] at hliteral
        exact absurd hd (hliteral d List.mem_cons_self)
      · intro h
        exact absurd (List.prefix_nil.mp h) (List.cons_ne_nil _ _)
    | cons d text =>
      rw [List.cons_append, List.cons_prefix_cons, List.cons_prefix_cons,
        ih fun e he => hliteral e (List.mem_cons_of_mem c he)]

variable (U : UriParser)

/-- Whether a segment begins with a text, as it is compared. -/
def UriPathSegment.begins (seg : UriPathSegment) (literal : String) : Bool :=
  if seg.text = [] then ascii literal <+: U.emptyRange ++ [0] else ascii literal <+: seg.text

/-- A comparison with the front of a segment does not go beyond it. -/
theorem prefix_memory_iff {seg : UriPathSegment} (hseg : seg.Split) {literal : String}
    (hliteral : ∀ c ∈ ascii literal, ¬ (isDelimiter c ∨ c = 0)) (beyond : Bytes) :
    ascii literal <+: seg.memory U beyond ↔ seg.begins U literal := by
  unfold UriPathSegment.memory UriPathSegment.begins
  split
  · exact decide_eq_true_iff.symm
  · rw [List.append_assoc, decide_eq_true_iff]
    apply prefix_append_iff hliteral
    cases hseg.ends with
    | inl hnil => exact ⟨0, beyond, by rw [hnil, List.nil_append], Or.inr rfl⟩
    | inr hmore =>
      obtain ⟨c, more, hbehind, hc⟩ := hmore
      exact ⟨c, more ++ 0 :: beyond, by rw [hbehind, List.cons_append], Or.inl hc⟩

end Splitting

section Third

variable (U : UriParser) (brski : Bool)

/-- What follows where the segment is no operation, from the text behind it. -/
def parseBehind (text behind : Bytes) : ParsedUri :=
  match estParseOperation brski behind with
  | none => { rv := .httpBadReq, operation := none, pathSeg := none }
  | some operation => { rv := .none, operation := some operation, pathSeg := some text }

variable {third : UriPathSegment} (beyond : Bytes)

theorem parseThird_long (h : estMaxPathSegmentLen < third.text.length) :
    parseThird U brski third beyond = invalidPath := by
  rw [parseThird, if_pos h]

/-- An empty segment counts as an operation. -/
theorem parseThird_empty (h : third.text = []) :
    parseThird U brski third beyond =
      if (U.emptyRange ++ [0]).head? = some 0 then
        { rv := .none, operation := some .cacerts, pathSeg := none }
      else invalidPath := by
  have hshort : ¬ estMaxPathSegmentLen < third.text.length := by
    rw [h]
    exact Nat.not_lt_zero _
  have hsegment : (if (U.emptyRange ++ [0]).head? = some 0 then
      (cString (U.emptyRange ++ [0])).take estMaxPathSegmentLen else []) = [] := by
    split
    · rename_i hend
      cases hrange : U.emptyRange ++ [0] with
      | nil => rfl
      | cons c rest =>
        rw [hrange] at hend
        cases hend
        rfl
    · rfl
  rw [parseThird, if_neg hshort]
  simp only [UriPathSegment.afterLast, UriPathSegment.memory, h, if_true, hsegment,
    estParseOperation_nil]

/-- At the end of the path, the operation is looked for beyond it. -/
theorem parseThird_end (htext : third.text ≠ []) (hshort : third.text.length ≤ estMaxPathSegmentLen)
    (hzero : 0 ∉ third.text) (hbehind : third.behind = []) :
    parseThird U brski third beyond =
      match estParseOperation brski third.text with
      | some operation => { rv := .none, operation := some operation, pathSeg := none }
      | none => parseBehind brski third.text (cString beyond) := by
  have hmemory : third.memory U beyond = third.text ++ 0 :: beyond := by
    rw [UriPathSegment.memory, if_neg htext, hbehind, List.append_nil]
  have hend : (third.afterLast U beyond).head? = some 0 := by
    rw [UriPathSegment.afterLast, if_neg htext, hbehind]
    rfl
  have hdrop : (third.text ++ 0 :: beyond).drop (third.text.length + 1) = beyond := by simp
  rw [parseThird, if_neg (Nat.not_lt.mpr hshort)]
  simp only [hend, if_true, hmemory, cString_append_zero hzero, List.take_of_length_le hshort, hdrop,
    List.take_length, parseBehind]
  cases estParseOperation brski third.text with
  | none => rfl
  | some operation => rfl

theorem parseThird_more {d : UInt8} {more : Bytes} (htext : third.text ≠ [])
    (hshort : third.text.length ≤ estMaxPathSegmentLen) (hbehind : third.behind = d :: more)
    (hd : d ≠ 0) (hzero : 0 ∉ more) :
    parseThird U brski third beyond =
      match estParseOperation brski third.text with
      | some _ => invalidPath
      | none => parseBehind brski third.text more := by
  have hmemory : third.memory U beyond = third.text ++ d :: (more ++ 0 :: beyond) := by
    rw [UriPathSegment.memory, if_neg htext, hbehind, List.append_assoc]
    rfl
  have hend : (third.afterLast U beyond).head? ≠ some 0 := by
    rw [UriPathSegment.afterLast, if_neg htext, hbehind]
    intro h
    exact hd (Option.some.inj h)
  have hdrop : (third.text ++ d :: (more ++ 0 :: beyond)).drop (third.text.length + 1) =
      more ++ 0 :: beyond := by simp
  rw [parseThird, if_neg (Nat.not_lt.mpr hshort)]
  simp only [hend, if_false, hmemory, hdrop, cString_append_zero hzero, List.take_length, parseBehind]
  cases estParseOperation brski third.text with
  | none => rfl
  | some operation => rfl

end Third

section PathText

theorem pathText_escape (a b : UInt8) (more : Bytes) :
    pathText (37 :: a :: b :: more) = (isxdigit a && isxdigit b && pathText more) := rfl

theorem pathText_cons {c : UInt8} (h : c ≠ 37) (rest : Bytes) :
    pathText (c :: rest) ↔ (pchar c ∨ c = 47) ∧ pathText rest := by
  conv_lhs => unfold pathText
  rw [if_neg h, Bool.and_eq_true, decide_eq_true_eq]

theorem pathText_append {front back : Bytes} (hfront : pathText front) (hback : pathText back) :
    pathText (front ++ back) := by
  fun_induction pathText front with
  | case1 => exact hback
  | case2 a b more ih =>
    rw [Bool.and_eq_true] at hfront
    rw [List.cons_append, List.cons_append, List.cons_append, pathText_escape, Bool.and_eq_true]
    exact ⟨hfront.1, ih hfront.2⟩
  | case3 => cases hfront
  | case4 c rest hescape ih =>
    rw [Bool.and_eq_true, decide_eq_true_eq] at hfront
    rw [List.cons_append, pathText_cons hescape]
    exact ⟨hfront.1, ih hfront.2⟩

/-- A slash is no part of an escape, so that what is before it stands on its own. -/
theorem pathText_of_slash {front back : Bytes} (h : pathText (front ++ 47 :: back)) :
    pathText front := by
  fun_induction pathText front with
  | case1 => rfl
  | case2 a b more ih =>
    rw [List.cons_append, List.cons_append, List.cons_append, pathText_escape,
      Bool.and_eq_true] at h
    rw [Bool.and_eq_true]
    exact ⟨h.1, ih h.2⟩
  | case3 rest hrest =>
    cases rest with
    | nil =>
      cases back with
      | nil => cases h
      | cons d back => cases h
    | cons a rest =>
      cases rest with
      | nil =>
        rw [List.cons_append, List.cons_append, List.nil_append, pathText_escape, Bool.and_eq_true,
          Bool.and_eq_true] at h
        exact absurd h.1.2 (by decide)
      | cons b more => exact absurd rfl (hrest a b more)
  | case4 c rest hescape ih =>
    rw [List.cons_append, pathText_cons hescape] at h
    rw [Bool.and_eq_true, decide_eq_true_eq]
    exact ⟨h.1, ih h.2⟩

/-- What is behind a text without escapes stands on its own. -/
theorem pathText_of_append {front back : Bytes} (hfront : 37 ∉ front)
    (h : pathText (front ++ back)) : pathText back := by
  induction front with
  | nil => exact h
  | cons c front ih =>
    have hc : c ≠ 37 := fun heq => hfront (heq ▸ List.mem_cons_self)
    rw [List.cons_append, pathText_cons hc] at h
    exact ih (fun hmem => hfront (List.mem_cons_of_mem c hmem)) h.2

theorem pathText_of_pchar {text : Bytes} (h : ∀ c ∈ text, pchar c) : pathText text := by
  induction text with
  | nil => rfl
  | cons c text ih =>
    have hc := h c List.mem_cons_self
    have hescape : c ≠ 37 := by
      intro heq
      rw [heq] at hc
      exact absurd hc (by decide)
    rw [pathText_cons hescape]
    exact ⟨Or.inl hc, ih fun d hd => h d (List.mem_cons_of_mem c hd)⟩

theorem pchar_of_isxdigit {c : UInt8} (h : isxdigit c) : pchar c := by
  rw [isxdigit, decide_eq_true_eq] at h
  cases h with
  | inl hdigit =>
    rw [isdigit, decide_eq_true_eq] at hdigit
    rw [pchar, decide_eq_true_eq]
    exact Or.inr (Or.inr (Or.inl hdigit))
  | inr hletter =>
    apply pchar_of_tolower
    rw [pchar, decide_eq_true_eq]
    exact Or.inl ⟨hletter.1, UInt8.le_trans hletter.2 (by decide)⟩

/-- The characters that the grammar lets through. -/
theorem mem_of_pathText {text : Bytes} (h : pathText text) :
    ∀ c ∈ text, pchar c ∨ c = 47 ∨ c = 37 := by
  fun_induction pathText text with
  | case1 => exact fun c hc => absurd hc List.not_mem_nil
  | case2 a b more ih =>
    rw [Bool.and_eq_true, Bool.and_eq_true] at h
    intro c hc
    simp only [List.mem_cons] at hc
    obtain rfl | rfl | rfl | hc := hc
    · exact Or.inr (Or.inr rfl)
    · exact Or.inl (pchar_of_isxdigit h.1.1)
    · exact Or.inl (pchar_of_isxdigit h.1.2)
    · exact ih h.2 c hc
  | case3 => cases h
  | case4 c rest hescape ih =>
    rw [Bool.and_eq_true, decide_eq_true_eq] at h
    intro d hd
    cases List.mem_cons.mp hd with
    | inl heq =>
      rw [heq]
      cases h.1 with
      | inl hpchar => exact Or.inl hpchar
      | inr hslash => exact Or.inr (Or.inl hslash)
    | inr hmem => exact ih h.2 d hmem

theorem not_delimiter_of_pchar {c : UInt8} (h : pchar c) : ¬ isDelimiter c := by
  rw [isDelimiter, decide_eq_true_eq]
  intro hc
  obtain rfl | rfl | rfl := hc
  · exact absurd h (by decide)
  · exact absurd h (by decide)
  · exact absurd h (by decide)

/-- What the grammar lets through has no query and no fragment in it. -/
theorem delimiter_of_pathText {text : Bytes} (h : pathText text) :
    ∀ c ∈ text, isDelimiter c → c = 47 := by
  intro c hc hdelimiter
  obtain hpchar | hslash | hescape := mem_of_pathText h c hc
  · exact absurd hdelimiter (not_delimiter_of_pchar hpchar)
  · exact hslash
  · rw [hescape] at hdelimiter
    exact absurd hdelimiter (by decide)

end PathText

section Paths

variable {U : UriParser} {brski : Bool}

/-- A path as a request target leaves it. -/
structure TargetPath (path : Bytes) : Prop where
  slash : path = ascii "*" ∨ ∃ rest, path = 47 :: rest ∧ rest.head? ≠ some 47
  text : 0 ∉ path

theorem segmentsOf_wellKnown (tail : Bytes) :
    segmentsOf (ascii ".well-known/est/" ++ tail) =
      ⟨ascii ".well-known", ascii "/est/" ++ tail⟩ :: ⟨ascii "est", 47 :: tail⟩ ::
        segmentsFrom [] tail := rfl

/-- What `uriparser` makes of a path behind the prefix. -/
theorem parse_prefix (hU : U.Lawful) {tail : Bytes} (htail : pathText tail) :
    U.parse (ascii "/.well-known/est/" ++ tail) =
      some (⟨ascii ".well-known", ascii "/est/" ++ tail⟩ :: ⟨ascii "est", 47 :: tail⟩ ::
        segmentsFrom [] tail) := by
  have hhead : (ascii ".well-known/est/" ++ tail).head? ≠ some 47 := by
    show some 46 ≠ some 47
    decide
  have htext : pathText (ascii ".well-known/est/" ++ tail) :=
    pathText_append (by decide +kernel) htail
  have hfree : ∀ c, isDelimiter c → c ≠ 47 → c ∉ ascii ".well-known/est/" ++ tail :=
    fun c hc hslash hmem => hslash (delimiter_of_pathText htext c hmem hc)
  have hsome := (hU.accepts _ hhead (hfree 63 (by decide) (by decide))
    (hfree 35 (by decide) (by decide))).mpr htext
  obtain ⟨segs, hsegs⟩ := Option.isSome_iff_exists.mp hsome
  have hsplit := hU.segments _ segs hhead hsegs
  rw [segmentsOf_wellKnown] at hsplit
  rw [← hsplit]
  exact hsegs

/-- The segments that the library hands out are split as they should be. -/
theorem parse_split (hU : U.Lawful) {path : Bytes} (hpath : TargetPath path)
    {segs : List UriPathSegment} (h : U.parse path = some segs) : ∀ seg ∈ segs, seg.Split := by
  intro seg hseg
  cases hpath.slash with
  | inl hasterisk =>
    rw [hasterisk] at h
    rw [hU.asterisk segs h, List.mem_singleton] at hseg
    rw [hseg]
    exact ⟨by decide, Or.inl rfl⟩
  | inr hslash =>
    obtain ⟨rest, rfl, hhead⟩ := hslash
    rw [hU.segments rest segs hhead h] at hseg
    cases hsegs : segmentsOf rest with
    | nil =>
      rw [hsegs] at hseg
      exact absurd hseg List.not_mem_nil
    | cons first more =>
      rw [hsegs, ← segmentsOf_cons hsegs] at hseg
      exact split_of_mem (fun c hc => absurd hc List.not_mem_nil) hseg

/-- A path of three segments, put together again. -/
theorem path_of_three (hU : U.Lawful) {path : Bytes} (hpath : TargetPath path)
    {first second third : UriPathSegment} {more : List UriPathSegment}
    (h : U.parse path = some (first :: second :: third :: more)) :
    path = 47 :: (first.text ++ 47 :: (second.text ++ 47 :: (third.text ++ third.behind))) := by
  cases hpath.slash with
  | inl hasterisk =>
    rw [hasterisk] at h
    have hone := hU.asterisk _ h
    cases hone
  | inr hslash =>
    obtain ⟨rest, rfl, hhead⟩ := hslash
    have hfirst := segmentsFrom_cons (segmentsOf_cons (hU.segments rest _ hhead h).symm)
    obtain ⟨afterFirst, hafterFirst, hsegs⟩ := hfirst.2.2 _ _ rfl
    have hsecond := segmentsFrom_cons hsegs
    obtain ⟨afterSecond, hafterSecond, hsegs⟩ := hsecond.2.2 _ _ rfl
    have hthird := segmentsFrom_cons hsegs
    rw [hfirst.1, hafterFirst, hsecond.1, hafterSecond, hthird.1]

/-- The two tests before the third segment is looked at. -/
def passes (U : UriParser) (first second : UriPathSegment) : Bool :=
  first.begins U ".well-known" && second.begins U "est"

/-- The result from the segments of the path; only the third of them is looked at
together with what is beyond the path. -/
theorem estParseUri_of_split {path : Bytes}
    (hsplit : ∀ segs, U.parse path = some segs → ∀ seg ∈ segs, seg.Split) (beyond : Bytes) :
    estParseUri U brski path beyond =
      match U.parse path with
      | none => some invalidPath
      | some [] => some { rv := .none, operation := none, pathSeg := none }
      | some [first] => if first.begins U ".well-known" then none else some invalidPath
      | some [first, second] => if passes U first second then none else some invalidPath
      | some (first :: second :: third :: _) =>
          some (if passes U first second then parseThird U brski third beyond else invalidPath) := by
  have hwell : ∀ seg : UriPathSegment, seg.Split →
      (ascii ".well-known" <+: seg.memory U beyond ↔ seg.begins U ".well-known") :=
    fun seg hseg => prefix_memory_iff U hseg (by decide) beyond
  have hest : ∀ seg : UriPathSegment, seg.Split →
      (ascii "est" <+: seg.memory U beyond ↔ seg.begins U "est") :=
    fun seg hseg => prefix_memory_iff U hseg (by decide) beyond
  unfold estParseUri
  cases hparse : U.parse path with
  | none => rfl
  | some segs =>
    have hsegs := hsplit segs hparse
    cases segs with
    | nil => rfl
    | cons first segs =>
      have hfirst := hwell first (hsegs first (by simp))
      cases segs with
      | nil => by_cases hbegins : first.begins U ".well-known" <;> simp [hfirst, hbegins]
      | cons second segs =>
        have hsecond := hest second (hsegs second (by simp))
        cases segs with
        | nil =>
          by_cases hbegins : first.begins U ".well-known" <;> simp [hfirst, hsecond, hbegins, passes]
          cases second.begins U "est" <;> rfl
        | cons third segs =>
          by_cases hbegins : first.begins U ".well-known" <;> simp [hfirst, hsecond, hbegins, passes]
          cases second.begins U "est" <;> rfl

theorem estParseUri_eq (hU : U.Lawful) {path : Bytes} (hpath : TargetPath path) (beyond : Bytes) :
    estParseUri U brski path beyond =
      match U.parse path with
      | none => some invalidPath
      | some [] => some { rv := .none, operation := none, pathSeg := none }
      | some [first] => if first.begins U ".well-known" then none else some invalidPath
      | some [first, second] => if passes U first second then none else some invalidPath
      | some (first :: second :: third :: _) =>
          some (if passes U first second then parseThird U brski third beyond else invalidPath) :=
  estParseUri_of_split (fun _ => parse_split hU hpath) beyond

/-- The third segment of a path that routes somewhere. -/
def Reads (brski : Bool) (third : UriPathSegment) (operation : EstOperation) : Option Bytes → Prop
  | none => third.behind = [] ∧ IsOperation brski third.text operation
  | some seg => third.text = seg ∧ IsSegment brski seg ∧
      ∃ text, third.behind = 47 :: text ∧ IsOperation brski text operation

theorem segmentsFrom_single {text : Bytes} (h : ∀ c ∈ text, ¬ isDelimiter c) :
    segmentsFrom [] text = [⟨text, []⟩] := by
  have happend := segmentsFrom_append h [] []
  rwa [List.append_nil, List.nil_append] at happend

theorem segmentsFrom_slash {text : Bytes} (h : ∀ c ∈ text, ¬ isDelimiter c) (rest : Bytes) :
    segmentsFrom [] (text ++ 47 :: rest) = ⟨text, 47 :: rest⟩ :: segmentsFrom [] rest := by
  rw [segmentsFrom_append h, segmentsFrom, if_pos rfl, List.nil_append]

theorem IsSegment.free {seg : Bytes} (h : IsSegment brski seg) : ∀ c ∈ seg, ¬ isDelimiter c := by
  intro c hc hdelimiter
  have hslash := delimiter_of_pathText h.text c hc hdelimiter
  exact h.slashless (hslash ▸ hc)

/-- The segments of a path that routes somewhere. -/
theorem Routes.segments (hU : U.Lawful) {path : Bytes} {operation : EstOperation}
    {seg : Option Bytes} (h : Routes brski path operation seg) :
    ∃ first second third more, U.parse path = some (first :: second :: third :: more) ∧
      first.text = ascii ".well-known" ∧ second.text = ascii "est" ∧
      Reads brski third operation seg := by
  cases h with
  | bare hop =>
    have hchars := hop.text.2
    have hparse := parse_prefix hU (pathText_of_pchar hchars)
    rw [segmentsFrom_single fun c hc => not_delimiter_of_pchar (hchars c hc)] at hparse
    exact ⟨_, _, _, _, hparse, rfl, rfl, rfl, hop⟩
  | labelled hseg hop =>
    have hchars := hop.text.2
    have htail := pathText_append hseg.text
      ((pathText_cons (by decide) _).mpr ⟨Or.inr rfl, pathText_of_pchar hchars⟩)
    have hparse := parse_prefix hU htail
    rw [segmentsFrom_slash hseg.free] at hparse
    exact ⟨_, _, _, _, hparse, rfl, rfl, rfl, hseg, _, rfl, hop⟩

theorem IsOperation.length_le {text : Bytes} {operation : EstOperation}
    (h : IsOperation brski text operation) : text.length ≤ estMaxPathSegmentLen := by
  obtain ⟨name, hmem, hname⟩ := h
  have hall : ∀ entry ∈ operations true, (ascii entry.1).length ≤ estMaxPathSegmentLen := by
    decide +kernel
  have hlength := congrArg List.length hname
  rw [List.length_map, List.length_map] at hlength
  rw [hlength]
  exact hall _ (operations_subset _ hmem)

theorem begins_of_text {seg : UriPathSegment} {literal : String} (hne : ascii literal ≠ [])
    (h : seg.text = ascii literal) : seg.begins U literal := by
  rw [UriPathSegment.begins, h, if_neg hne, decide_eq_true_eq]

/-- A path that routes somewhere is answered with where, whatever is beyond it. -/
theorem Routes.result (hU : U.Lawful) {path : Bytes} (hpath : TargetPath path)
    {operation : EstOperation} {seg : Option Bytes} (h : Routes brski path operation seg)
    (beyond : Bytes) :
    estParseUri U brski path beyond =
      some { rv := .none, operation := some operation, pathSeg := seg } := by
  obtain ⟨first, second, third, more, hparse, hfirst, hsecond, hreads⟩ := h.segments hU
  have hpasses : passes U first second := by
    rw [passes, Bool.and_eq_true]
    exact ⟨begins_of_text (by decide) hfirst, begins_of_text (by decide) hsecond⟩
  have hzero : 0 ∉ third.text ++ third.behind := by
    intro hmem
    apply hpath.text
    rw [path_of_three hU hpath hparse]
    simp only [List.mem_cons, List.mem_append] at hmem ⊢
    tauto
  rw [List.mem_append, not_or] at hzero
  rw [estParseUri_eq hU hpath, hparse]
  simp only [hpasses, if_true]
  cases seg with
  | none =>
    obtain ⟨hbehind, hop⟩ := hreads
    rw [parseThird_end U brski beyond hop.text.1 hop.length_le hzero.1 hbehind,
      (estParseOperation_eq_some_iff hop.text.1).mpr hop]
  | some seg =>
    obtain ⟨rfl, hseg, text, hbehind, hop⟩ := hreads
    have hmore : 0 ∉ text := by
      intro hmem
      apply hzero.2
      rw [hbehind]
      exact List.mem_cons_of_mem _ hmem
    rw [parseThird_more U brski beyond hseg.nonempty hseg.short hbehind (by decide) hmore,
      (estParseOperation_eq_none_iff hseg.nonempty).mpr hseg.other]
    simp only [parseBehind, (estParseOperation_eq_some_iff hop.text.1).mpr hop]

end Paths

end LibEst.Server.Routing
