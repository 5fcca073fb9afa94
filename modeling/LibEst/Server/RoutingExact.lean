import LibEst.Server.Routing

/-! Which request targets are routed as they should be. A path behind the known prefix is an
operation, or a segment and an operation; every other one has to be refused, and nothing
beyond its end may matter. -/
namespace LibEst.Server.RoutingExact

open LibEst.Basic LibEst.Lib.ByteString LibEst.SafeStr LibEst.Server.AuthHeader
open LibEst.Client.Http LibEst.Server.HttpMessage LibEst.Server.Uri LibEst.Server.Routing

section Exactness

variable (U : UriParser) (brski : Bool)

/-- What routing is for, on one path and whatever is beyond its end. -/
structure Exact (path : Bytes) : Prop where
  answered : ∀ beyond, ∃ parsed, estParseUri U brski path beyond = some parsed ∧
    (parsed.rv = .none ↔ ∃ operation seg, Routes brski path operation seg) ∧
    ∀ operation seg, Routes brski path operation seg →
      parsed.operation = some operation ∧ parsed.pathSeg = seg
  blind : ∀ beyond other, estParseUri U brski path beyond = estParseUri U brski path other

/-- A third segment that is told apart from everything else. It is too long, or empty where
an empty range does not look like the end of the path; or it is an operation, with more
behind it or not; or there is more behind it, and that is no operation, or one behind a
slash. -/
def ThirdRegular (third : UriPathSegment) (known : Prop) : Prop :=
  estMaxPathSegmentLen < third.text.length ∨
    if third.text = [] then (U.emptyRange ++ [0]).head? ≠ some (0 : UInt8)
    else
      match third.behind with
      | [] => estParseOperation brski third.text ≠ none ∧ known
      | d :: more => estParseOperation brski third.text ≠ none ∨
          more ≠ [] ∧ (estParseOperation brski more = none ∨ known ∧ d = 47)

/-- A path that `uriparser` refuses, or whose first segments are none of ours; or one whose
third segment is regular, and known to be behind the right prefix where it matters. -/
def Regular (path : Bytes) : Prop :=
  match U.parse path with
  | none => True
  | some [] => False
  | some [first] => ¬ first.begins U ".well-known"
  | some [first, second] => ¬ passes U first second
  | some (first :: second :: third :: _) => ¬ passes U first second ∨
      ThirdRegular U brski third (first.text = ascii ".well-known" ∧ second.text = ascii "est")

/-- The path is answered with one and the same error. -/
def Refused (path : Bytes) : Prop :=
  ∃ parsed : ParsedUri, parsed.rv ≠ .none ∧ ∀ beyond, estParseUri U brski path beyond = some parsed

variable {U} {brski}

theorem exact_iff (hU : U.Lawful) {path : Bytes} (hpath : TargetPath path) :
    Exact U brski path ↔ (∃ operation seg, Routes brski path operation seg) ∨ Refused U brski path := by
  constructor
  · intro h
    by_cases hroutes : ∃ operation seg, Routes brski path operation seg
    · exact Or.inl hroutes
    · obtain ⟨parsed, hparsed, hrv, -⟩ := h.answered []
      exact Or.inr ⟨parsed, fun hnone => hroutes (hrv.mp hnone),
        fun beyond => (h.blind beyond []).trans hparsed⟩
  · intro h
    cases h with
    | inl hroutes =>
      obtain ⟨operation, seg, hroute⟩ := hroutes
      have hresult := hroute.result hU hpath
      constructor
      · intro beyond
        refine ⟨_, hresult beyond, iff_of_true rfl ⟨operation, seg, hroute⟩, ?_⟩
        intro operation' seg' hroute'
        have hsame := (hresult beyond).symm.trans (hroute'.result hU hpath beyond)
        cases hsame
        exact ⟨rfl, rfl⟩
      · intro beyond other
        rw [hresult beyond, hresult other]
    | inr hrefused =>
      obtain ⟨parsed, hrv, hresult⟩ := hrefused
      have hnone : ∀ operation seg, ¬ Routes brski path operation seg := by
        intro operation seg hroute
        have hsame := (hresult []).symm.trans (hroute.result hU hpath [])
        cases hsame
        exact hrv rfl
      constructor
      · intro beyond
        refine ⟨parsed, hresult beyond, iff_of_false hrv ?_, ?_⟩
        · intro hroutes
          obtain ⟨operation, seg, hroute⟩ := hroutes
          exact hnone operation seg hroute
        · intro operation seg hroute
          exact absurd hroute (hnone operation seg)
      · intro beyond other
        rw [hresult beyond, hresult other]

/-- What the split path says of where it routes. -/
theorem routes_third (hU : U.Lawful) {path : Bytes} {operation : EstOperation} {seg : Option Bytes}
    (h : Routes brski path operation seg) {first second third : UriPathSegment}
    {more : List UriPathSegment} (hparse : U.parse path = some (first :: second :: third :: more)) :
    (first.text = ascii ".well-known" ∧ second.text = ascii "est") ∧
      Reads brski third operation seg := by
  obtain ⟨first', second', third', more', hparse', hfirst, hsecond, hreads⟩ := h.segments hU
  rw [hparse] at hparse'
  cases hparse'
  exact ⟨⟨hfirst, hsecond⟩, hreads⟩

theorem not_refused {path beyond : Bytes} {parsed : ParsedUri}
    (h : estParseUri U brski path beyond = some parsed) (hrv : parsed.rv = .none) :
    ¬ Refused U brski path := by
  intro hrefused
  obtain ⟨other, hother, hsame⟩ := hrefused
  rw [hsame beyond] at h
  cases h
  exact hother hrv

/-- A segment at the end of the path is an operation, or the answer is not its own. -/
theorem thirdRegular_end_iff (hU : U.Lawful) {path : Bytes} (hpath : TargetPath path)
    {first second third : UriPathSegment} {more : List UriPathSegment}
    (hparse : U.parse path = some (first :: second :: third :: more))
    (hresult : ∀ beyond, estParseUri U brski path beyond = some (parseThird U brski third beyond))
    (htext : third.text ≠ []) (hshort : third.text.length ≤ estMaxPathSegmentLen)
    (hzero : 0 ∉ third.text) (hbehind : third.behind = []) :
    (estParseOperation brski third.text ≠ none ∧
        first.text = ascii ".well-known" ∧ second.text = ascii "est") ↔
      (∃ operation seg, Routes brski path operation seg) ∨ Refused U brski path := by
  have hthird := fun beyond => parseThird_end U brski beyond htext hshort hzero hbehind
  cases hop : estParseOperation brski third.text with
  | none =>
    -- the memory beyond the path decides
    have hnot : ¬ Refused U brski path := by
      apply not_refused (hresult [])
      rw [hthird, hop]
      rfl
    apply iff_of_false
    · exact fun h => h.1 rfl
    · intro h
      obtain ⟨operation, seg, hroute⟩ := h.resolve_right hnot
      have hreads := (routes_third hU hroute hparse).2
      cases seg with
      | none => exact (estParseOperation_eq_none_iff htext).mp hop operation hreads.2
      | some seg =>
        obtain ⟨-, -, text, hmore, -⟩ := hreads
        rw [hbehind] at hmore
        cases hmore
  | some operation =>
    have hnot : ¬ Refused U brski path := by
      apply not_refused (hresult [])
      rw [hthird, hop]
    rw [or_iff_left hnot]
    constructor
    · intro hknown
      have hroute := Routes.bare ((estParseOperation_eq_some_iff htext).mp hop)
      refine ⟨operation, none, ?_⟩
      rw [path_of_three hU hpath hparse, hknown.2.1, hknown.2.2, hbehind, List.append_nil]
      exact hroute
    · intro hroutes
      obtain ⟨operation', seg, hroute⟩ := hroutes
      exact ⟨Option.some_ne_none _, (routes_third hU hroute hparse).1⟩

/-- A segment that the library has accepted before an operation may stand there. -/
theorem isSegment_of_parse (hU : U.Lawful) {seg text : Bytes} {operation : EstOperation}
    {segs : List UriPathSegment}
    (hparse : U.parse (ascii "/.well-known/est/" ++ (seg ++ 47 :: text)) = some segs)
    (hne : seg ≠ []) (hshort : seg.length ≤ estMaxPathSegmentLen)
    (hfree : ∀ c ∈ seg, ¬ isDelimiter c) (hop : IsOperation brski text operation)
    (hother : estParseOperation brski seg = none) : IsSegment brski seg := by
  have hhead : (ascii ".well-known/est/" ++ (seg ++ 47 :: text)).head? ≠ some 47 := by
    show some 46 ≠ some 47
    decide
  have hclean : ∀ c, isDelimiter c → c ≠ 47 →
      c ∉ ascii ".well-known/est/" ++ (seg ++ 47 :: text) := by
    intro c hc hslash hmem
    rw [List.mem_append, List.mem_append, List.mem_cons] at hmem
    obtain hmem | hmem | hmem | hmem := hmem
    · exact hslash (delimiter_of_pathText (by decide +kernel) c hmem hc)
    · exact hfree c hmem hc
    · exact hslash hmem
    · exact not_delimiter_of_pchar (hop.text.2 c hmem) hc
  have hwhole := (hU.accepts _ hhead (hclean 63 (by decide) (by decide))
    (hclean 35 (by decide) (by decide))).mp (Option.isSome_of_eq_some hparse)
  exact {
    nonempty := hne
    short := hshort
    slashless := fun hmem => hfree 47 hmem rfl
    text := pathText_of_slash (pathText_of_append (by decide) hwhole)
    other := (estParseOperation_eq_none_iff hne).mp hother }

/-- A segment with more behind it is an operation, or what is behind it decides. -/
theorem thirdRegular_more_iff (hU : U.Lawful) {path : Bytes} (hpath : TargetPath path)
    {first second third : UriPathSegment} {later : List UriPathSegment}
    (hparse : U.parse path = some (first :: second :: third :: later))
    (hresult : ∀ beyond, estParseUri U brski path beyond = some (parseThird U brski third beyond))
    (htext : third.text ≠ []) (hshort : third.text.length ≤ estMaxPathSegmentLen)
    {d : UInt8} {more : Bytes} (hbehind : third.behind = d :: more) (hd : d ≠ 0) (hzero : 0 ∉ more) :
    (estParseOperation brski third.text ≠ none ∨ more ≠ [] ∧ (estParseOperation brski more = none ∨
        (first.text = ascii ".well-known" ∧ second.text = ascii "est") ∧ d = 47)) ↔
      (∃ operation seg, Routes brski path operation seg) ∨ Refused U brski path := by
  have hthird := fun beyond => parseThird_more U brski beyond htext hshort hbehind hd hzero
  cases hop : estParseOperation brski third.text with
  | some operation =>
    refine iff_of_true (Or.inl (Option.some_ne_none _)) (Or.inr ⟨invalidPath, by decide, ?_⟩)
    intro beyond
    rw [hresult, hthird, hop]
  | none =>
    have hreads : ∀ operation seg, Routes brski path operation seg →
        (first.text = ascii ".well-known" ∧ second.text = ascii "est") ∧ d = 47 ∧
          IsOperation brski more operation := by
      intro operation seg hroute
      obtain ⟨hknown, hreads⟩ := routes_third hU hroute hparse
      cases seg with
      | none =>
        have hnil := hreads.1
        rw [hbehind] at hnil
        cases hnil
      | some seg =>
        obtain ⟨-, -, text, hmore, hop⟩ := hreads
        rw [hbehind] at hmore
        cases hmore
        exact ⟨hknown, rfl, hop⟩
    cases hmoreOp : estParseOperation brski more with
    | none =>
      have hmore : more ≠ [] := by
        intro hnil
        rw [hnil, estParseOperation_nil] at hmoreOp
        cases hmoreOp
      apply iff_of_true (Or.inr ⟨hmore, Or.inl rfl⟩)
      refine Or.inr ⟨⟨.httpBadReq, none, none⟩, by decide, ?_⟩
      intro beyond
      rw [hresult, hthird, hop]
      simp only [parseBehind, hmoreOp]
    | some operation =>
      have hnot : ¬ Refused U brski path := by
        apply not_refused (hresult [])
        rw [hthird, hop]
        simp only [parseBehind, hmoreOp]
      rw [or_iff_left hnot]
      constructor
      · intro h
        obtain ⟨hmore, hrest⟩ := h.resolve_left (fun hne => hne rfl)
        obtain ⟨hknown, hslash⟩ := hrest.resolve_left (Option.some_ne_none _)
        have hpathEq : path = ascii "/.well-known/est/" ++ (third.text ++ 47 :: more) := by
          rw [path_of_three hU hpath hparse, hknown.1, hknown.2, hbehind, hslash]
          rfl
        have hmoreIs := (estParseOperation_eq_some_iff hmore).mp hmoreOp
        have hfree := (parse_split hU hpath hparse third (by simp)).free
        rw [hpathEq] at hparse ⊢
        exact ⟨operation, some third.text,
          .labelled (isSegment_of_parse hU hparse htext hshort hfree hmoreIs hop) hmoreIs⟩
      · intro hroutes
        obtain ⟨operation', seg, hroute⟩ := hroutes
        obtain ⟨hknown, hslash, hmoreIs⟩ := hreads operation' seg hroute
        exact Or.inr ⟨hmoreIs.text.1, Or.inr ⟨hknown, hslash⟩⟩

theorem thirdRegular_iff (hU : U.Lawful) {path : Bytes} (hpath : TargetPath path)
    {first second third : UriPathSegment} {more : List UriPathSegment}
    (hparse : U.parse path = some (first :: second :: third :: more))
    (hpasses : passes U first second) :
    ThirdRegular U brski third (first.text = ascii ".well-known" ∧ second.text = ascii "est") ↔
      (∃ operation seg, Routes brski path operation seg) ∨ Refused U brski path := by
  have hresult : ∀ beyond, estParseUri U brski path beyond =
      some (parseThird U brski third beyond) := by
    intro beyond
    rw [estParseUri_eq hU hpath, hparse]
    simp only [hpasses, if_true]
  have hsplit := parse_split hU hpath hparse third (by simp)
  have hzero : 0 ∉ third.text ∧ 0 ∉ third.behind := by
    rw [← not_or, ← List.mem_append]
    intro hmem
    apply hpath.text
    rw [path_of_three hU hpath hparse]
    simp only [List.mem_cons, List.mem_append] at hmem ⊢
    tauto
  unfold ThirdRegular
  by_cases hlong : estMaxPathSegmentLen < third.text.length
  · refine iff_of_true (Or.inl hlong) (Or.inr ⟨invalidPath, by decide, ?_⟩)
    intro beyond
    rw [hresult, parseThird_long U brski beyond hlong]
  · rw [or_iff_right hlong]
    by_cases htext : third.text = []
    · rw [if_pos htext]
      have hthird := fun beyond => parseThird_empty U brski beyond htext
      by_cases hend : (U.emptyRange ++ [0]).head? = some 0
      · apply iff_of_false (not_not.mpr hend)
        intro h
        have hnot : ¬ Refused U brski path := by
          apply not_refused (hresult [])
          rw [hthird, if_pos hend]
        obtain ⟨operation, seg, hroute⟩ := h.resolve_right hnot
        have hreads := (routes_third hU hroute hparse).2
        cases seg with
        | none => exact hreads.2.text.1 htext
        | some seg =>
          obtain ⟨hsame, hseg, -⟩ := hreads
          exact hseg.nonempty (hsame.symm.trans htext)
      · refine iff_of_true hend (Or.inr ⟨invalidPath, by decide, ?_⟩)
        intro beyond
        rw [hresult, hthird, if_neg hend]
    · rw [if_neg htext]
      cases hbehind : third.behind with
      | nil =>
        exact thirdRegular_end_iff hU hpath hparse hresult htext (Nat.not_lt.mp hlong) hzero.1 hbehind
      | cons d more =>
        have hall := hzero.2
        rw [hbehind, List.mem_cons, not_or] at hall
        exact thirdRegular_more_iff hU hpath hparse hresult htext (Nat.not_lt.mp hlong) hbehind
          (Ne.symm hall.1) hall.2

theorem regular_iff (hU : U.Lawful) {path : Bytes} (hpath : TargetPath path) :
    Regular U brski path ↔
      (∃ operation seg, Routes brski path operation seg) ∨ Refused U brski path := by
  have hrouted : ∀ segs, U.parse path = some segs → segs.length < 3 →
      ¬ ∃ operation seg, Routes brski path operation seg := by
    intro segs hparse hshort hroutes
    obtain ⟨operation, seg, hroute⟩ := hroutes
    obtain ⟨first, second, third, more, hthree, -⟩ := hroute.segments hU
    rw [hthree] at hparse
    cases hparse
    simp only [List.length_cons] at hshort
    omega
  have hinvalid : (∀ beyond, estParseUri U brski path beyond = some invalidPath) →
      Refused U brski path := fun h => ⟨invalidPath, by decide, h⟩
  have hundefined : (∀ beyond, estParseUri U brski path beyond = none) →
      ¬ Refused U brski path := by
    intro h hrefused
    obtain ⟨parsed, -, hparsed⟩ := hrefused
    have hsame := (h []).symm.trans (hparsed [])
    cases hsame
  have hresult := @estParseUri_eq U brski hU path hpath
  unfold Regular
  cases hparse : U.parse path with
  | none =>
    simp only [hparse] at hresult
    exact iff_of_true trivial (Or.inr (hinvalid hresult))
  | some segs =>
    simp only [hparse] at hresult
    have hfew := hrouted segs hparse
    match segs, hparse, hresult, hfew with
    | [], hparse, hresult, hfew =>
      apply iff_of_false not_false
      intro h
      exact not_refused (hresult []) rfl (h.resolve_left (hfew (by decide)))
    | [first], hparse, hresult, hfew =>
      rw [or_iff_right (hfew (by simp))]
      by_cases hbegins : first.begins U ".well-known"
      · simp only [hbegins, if_true] at hresult
        exact iff_of_false (not_not.mpr hbegins) (hundefined hresult)
      · simp only [hbegins] at hresult
        exact iff_of_true hbegins (hinvalid hresult)
    | [first, second], hparse, hresult, hfew =>
      rw [or_iff_right (hfew (by simp))]
      by_cases hpasses : passes U first second
      · simp only [hpasses, if_true] at hresult
        exact iff_of_false (not_not.mpr hpasses) (hundefined hresult)
      · simp only [hpasses] at hresult
        exact iff_of_true hpasses (hinvalid hresult)
    | first :: second :: third :: more, hparse, hresult, hfew =>
      by_cases hpasses : passes U first second
      · exact (or_iff_right (not_not.mpr hpasses)).trans (thirdRegular_iff hU hpath hparse hpasses)
      · simp only [hpasses] at hresult
        exact iff_of_true (Or.inl hpasses) (Or.inr (hinvalid hresult))

end Exactness

section Targets

/-- What a target that is accepted comes to. -/
theorem targetPath_shape {target : Bytes} (h : isValidUri target) : TargetPath (targetPath target) := by
  constructor
  · rw [isValidUri, decide_eq_true_eq] at h
    cases h with
    | inl hslash =>
      obtain ⟨rest, rfl⟩ := hslash
      refine Or.inr ⟨removeDoubleDots true (cString (urlDecode
        (min (rest.takeWhile (· ≠ 63)).length 271) (rest.takeWhile (· ≠ 63)))), ?_,
        removeDoubleDots_head⟩
      have hcut : (ascii "/" ++ rest).takeWhile (· ≠ 63) = 47 :: rest.takeWhile (· ≠ 63) := rfl
      have hlen : min (47 :: rest.takeWhile (· ≠ 63)).length estUriMaxLen =
          min (rest.takeWhile (· ≠ 63)).length 271 + 1 := by
        rw [List.length_cons, estUriMaxLen]
        omega
      rw [targetPath, hcut, decodeTarget, hlen, urlDecode_cons (by decide)]
      exact removeDoubleDots_cons 47 _
    | inr hasterisk =>
      rw [hasterisk]
      exact Or.inl (by decide +kernel)
  · intro hmem
    have hzero := removeDoubleDots_subset hmem
    rw [cString] at hzero
    exact absurd (List.mem_takeWhile_imp hzero) (by decide)

/-- A target comes to a path that is routed as it should be just where it is regular. -/
theorem routing_exact_iff {U : UriParser} (hU : U.Lawful) (brski : Bool) {target : Bytes}
    (h : isValidUri target) :
    Exact U brski (targetPath target) ↔ Regular U brski (targetPath target) :=
  (exact_iff hU (targetPath_shape h)).trans (regular_iff hU (targetPath_shape h)).symm

/-- A library that knows paths, and neither queries nor fragments. -/
def pathParser : UriParser where
  parse
    | 47 :: rest =>
        if rest.head? ≠ some 47 ∧ 63 ∉ rest ∧ 35 ∉ rest ∧ pathText rest then some (segmentsOf rest)
        else none
    | text => if text = ascii "*" then some [⟨text, []⟩] else none
  emptyRange := ascii "X"

theorem pathParser_lawful : pathParser.Lawful where
  segments rest segs _ hparse := by
    simp only [pathParser] at hparse
    split at hparse
    · cases hparse
      rfl
    · cases hparse
  accepts rest hhead hquery hfragment := by
    simp only [pathParser, hhead, hquery, hfragment, ne_eq, not_false_eq_true, true_and]
    split
    · rename_i htext
      exact iff_of_true rfl htext
    · rename_i htext
      exact iff_of_false Bool.false_ne_true htext
  asterisk segs hparse := by
    have hone : pathParser.parse (ascii "*") = some [⟨ascii "*", []⟩] := by decide +kernel
    rw [hone] at hparse
    cases hparse
    rfl

theorem routing_exact_csrattrs :
    pathParser.Lawful ∧ isValidUri (ascii "/.well-known//est/%43srattrs?a") ∧
      Exact pathParser true (targetPath (ascii "/.well-known//est/%43srattrs?a")) := by
  have hvalid : isValidUri (ascii "/.well-known//est/%43srattrs?a") := by decide
  have hparse : pathParser.parse (targetPath (ascii "/.well-known//est/%43srattrs?a")) =
      some [⟨ascii ".well-known", ascii "/est/Csrattrs"⟩, ⟨ascii "est", ascii "/Csrattrs"⟩,
        ⟨ascii "Csrattrs", []⟩] := by
    decide +kernel
  refine ⟨pathParser_lawful, hvalid, (routing_exact_iff pathParser_lawful true hvalid).mpr ?_⟩
  rw [Regular, hparse]
  exact Or.inr (Or.inr ⟨by decide +kernel, rfl, rfl⟩)

/-- `est_parse_uri` on a target in the buffer of a connection. -/
def routeTarget (U : UriParser) (brski : Bool) (target behind : Bytes) : Option ParsedUri :=
  estParseUri U brski (targetPath target) (behindPath target behind)

/-- The query names the operation, and the segment before it is taken for one. -/
theorem query_routed :
    isValidUri (ascii "/.well-known/est/seg?cacerts") ∧
      routeTarget pathParser true (ascii "/.well-known/est/seg?cacerts") (ascii "HTTP/1.1") =
        some { rv := .none, operation := some .cacerts, pathSeg := some (ascii "seg") } ∧
      ¬ Exact pathParser true (targetPath (ascii "/.well-known/est/seg?cacerts")) := by
  have hvalid : isValidUri (ascii "/.well-known/est/seg?cacerts") := by decide
  have hroute : routeTarget pathParser true (ascii "/.well-known/est/seg?cacerts")
      (ascii "HTTP/1.1") =
        some { rv := .none, operation := some .cacerts, pathSeg := some (ascii "seg") } := by
    decide +kernel
  have hother : estParseUri pathParser true (targetPath (ascii "/.well-known/est/seg?cacerts"))
      (ascii "HTTP/1.1") = some { rv := .httpBadReq, operation := none, pathSeg := none } := by
    decide +kernel
  refine ⟨hvalid, hroute, ?_⟩
  intro hexact
  have hsame := hexact.blind (behindPath (ascii "/.well-known/est/seg?cacerts") (ascii "HTTP/1.1"))
    (ascii "HTTP/1.1")
  have hclash := (hroute.symm.trans hsame).trans hother
  cases hclash

end Targets

end LibEst.Server.RoutingExact
