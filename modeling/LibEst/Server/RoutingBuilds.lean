import LibEst.Server.RoutingExact

/-! The two builds of `est_parse_uri`. Without `uriparser` a URI is compared with those of
the operations as a whole; with it the segments of its path are looked at one by one. -/
namespace LibEst.Server.RoutingBuilds

open LibEst.Basic LibEst.Lib.ByteString LibEst.Server.Uri LibEst.Server.Routing
open LibEst.Server.HttpMessage LibEst.Server.RoutingExact

section Plain

variable (brski : Bool)

/-- `strncmp(text, literal, n) == 0`. -/
def strncmpEq (text : Bytes) (literal : String) (n : Nat) : Bool :=
  text.take n = (ascii literal).take n

/-- The URIs of the operations in the order in which they are compared. -/
def operationUris : List (String × EstOperation) :=
  [("/.well-known/est/cacerts", .cacerts), ("/.well-known/est/simpleenroll", .simpleEnroll),
    ("/.well-known/est/simplereenroll", .simpleReenroll),
    ("/.well-known/est/csrattrs", .csrattrs), ("/.well-known/est/serverkeygen", .serverKeygen)] ++
  if brski then [("/.well-known/est/requestvoucher", .brskiReqVoucher),
    ("/.well-known/est/voucher_status", .brskiVoucherStatus),
    ("/.well-known/est/enrollstatus", .brskiEnrollStatus)]
  else []

/-- `est_parse_uri` of a build without `uriparser`. -/
def estParseUriPlain (uri : Bytes) : ParsedUri :=
  match (operationUris brski).find? fun entry => strncmpEq uri entry.1 estUriMaxLen with
  | some entry => { rv := .none, operation := some entry.2, pathSeg := none }
  | none => invalidPath

/-- A URI as the operations have it. -/
def Canonical (uri : Bytes) (operation : EstOperation) : Prop :=
  ∃ name, (name, operation) ∈ operations brski ∧ uri = ascii "/.well-known/est/" ++ ascii name

variable {brski}

theorem strncmpEq_iff {text : Bytes} {literal : String} {n : Nat} (h : (ascii literal).length < n) :
    strncmpEq text literal n ↔ text = ascii literal := by
  rw [strncmpEq, decide_eq_true_eq, List.take_of_length_le (Nat.le_of_lt h)]
  constructor
  · intro htake
    have hlength := congrArg List.length htake
    rw [List.length_take] at hlength
    rw [← htake]
    exact (List.take_of_length_le (by omega)).symm
  · intro htext
    rw [htext]
    exact List.take_of_length_le (Nat.le_of_lt h)

theorem operationUris_iff (uri : Bytes) (operation : EstOperation) :
    (∃ literal, (literal, operation) ∈ operationUris brski ∧ uri = ascii literal) ↔
      Canonical brski uri operation := by
  have hall : List.Perm ((operationUris brski).map fun entry => (ascii entry.1, entry.2))
      ((operations brski).map fun entry =>
        (ascii "/.well-known/est/" ++ ascii entry.1, entry.2)) := by
    cases brski
    · decide +kernel
    · decide +kernel
  constructor
  · intro hentry
    obtain ⟨literal, hmem, rfl⟩ := hentry
    have hmapped := hall.subset (List.mem_map_of_mem hmem)
    obtain ⟨⟨text, found⟩, hentry, heq⟩ := List.mem_map.mp hmapped
    obtain ⟨htext, rfl⟩ := Prod.mk.inj heq
    exact ⟨text, hentry, htext.symm⟩
  · intro hcanonical
    obtain ⟨name, hmem, rfl⟩ := hcanonical
    have hmapped := hall.symm.subset (List.mem_map_of_mem hmem)
    obtain ⟨⟨text, found⟩, hentry, heq⟩ := List.mem_map.mp hmapped
    obtain ⟨htext, rfl⟩ := Prod.mk.inj heq
    exact ⟨text, hentry, htext.symm⟩

theorem Canonical.unique {uri : Bytes} {operation other : EstOperation}
    (h : Canonical brski uri operation) (h' : Canonical brski uri other) : operation = other := by
  obtain ⟨name, hmem, rfl⟩ := h
  obtain ⟨name', hmem', hsame⟩ := h'
  have hname : ascii name = ascii name' := List.append_cancel_left hsame
  exact congrArg Prod.snd (operations_injective hmem hmem' (congrArg (List.map _) hname))

theorem estParseUriPlain_eq_iff (uri : Bytes) (operation : EstOperation) :
    estParseUriPlain brski uri = { rv := .none, operation := some operation, pathSeg := none } ↔
      Canonical brski uri operation := by
  have hshort : ∀ entry ∈ operationUris brski, (ascii entry.1).length < estUriMaxLen := by
    cases brski
    · decide +kernel
    · decide +kernel
  have hmatches : ∀ entry ∈ operationUris brski, strncmpEq uri entry.1 estUriMaxLen →
      Canonical brski uri entry.2 := by
    intro entry hmem htext
    exact (operationUris_iff uri entry.2).mp ⟨entry.1, hmem, (strncmpEq_iff (hshort entry hmem)).mp htext⟩
  unfold estParseUriPlain
  cases hfind : (operationUris brski).find? fun entry => strncmpEq uri entry.1 estUriMaxLen with
  | none =>
    apply iff_of_false
    · intro h
      cases h
    · intro hcanonical
      obtain ⟨literal, hmem, htext⟩ := (operationUris_iff uri operation).mpr hcanonical
      exact List.find?_eq_none.mp hfind _ hmem ((strncmpEq_iff (hshort _ hmem)).mpr htext)
  | some entry =>
    have htext := List.find?_some hfind
    have hfound := hmatches entry (List.mem_of_find?_eq_some hfind) htext
    constructor
    · intro h
      cases h
      exact hfound
    · intro hcanonical
      dsimp only
      rw [hfound.unique hcanonical]

end Plain

section Segments

/-- What the library promises of any URI: a segment is a part of it without delimiters, up
to the next of these or to the end. -/
structure SplitsUris (U : UriParser) : Prop where
  split : ∀ uri segs, U.parse uri = some segs → ∀ seg ∈ segs, seg.Split
  within : ∀ uri segs, U.parse uri = some segs → ∀ seg ∈ segs, seg.text ++ seg.behind <:+ uri

variable (U : UriParser) (brski : Bool)

/-- A third segment that is the last one and an operation, in letters of either case. An
empty one counts as the first of the operations where it looks like the last. -/
def Selects (third : UriPathSegment) (operation : EstOperation) : Prop :=
  if third.text = [] then (U.emptyRange ++ [0]).head? = some (0 : UInt8) ∧ operation = .cacerts
  else third.behind = [] ∧ IsOperation brski third.text operation

/-- A URI with no operation in it in the eyes of the code. Where the path is the front of
`.well-known` and `est` only, the code follows a null pointer. -/
def Unselective (uri : Bytes) : Prop :=
  match U.parse uri with
  | none => True
  | some [] => True
  | some [first] => ¬ first.begins U ".well-known"
  | some [first, second] => ¬ passes U first second
  | some (first :: second :: third :: _) =>
      passes U first second → ∀ operation, ¬ Selects U brski third operation

/-- The builds agree on a URI: the one with `uriparser` comes to a result, and finds an
operation without a segment before it just where the other one finds this operation. -/
def Agree (uri beyond : Bytes) : Prop :=
  ∃ parsed, estParseUri U brski uri beyond = some parsed ∧
    ∀ operation, parsed = { rv := .none, operation := some operation, pathSeg := none } ↔
      estParseUriPlain brski uri = { rv := .none, operation := some operation, pathSeg := none }

variable {U} {brski}

theorem Selects.short {third : UriPathSegment} {operation : EstOperation}
    (h : Selects U brski third operation) : third.text.length ≤ estMaxPathSegmentLen := by
  unfold Selects at h
  by_cases htext : third.text = []
  · rw [htext]
    exact Nat.zero_le _
  · rw [if_neg htext] at h
    exact h.2.length_le

/-- The third segment gives an operation without a segment before it just where it selects
this operation. -/
theorem parseThird_eq_iff {third : UriPathSegment} (hzero : 0 ∉ third.text ++ third.behind)
    (beyond : Bytes) (operation : EstOperation) :
    parseThird U brski third beyond =
        { rv := .none, operation := some operation, pathSeg := none } ↔
      Selects U brski third operation := by
  rw [List.mem_append, not_or] at hzero
  have hbehindOp (text behind : Bytes) : parseBehind brski text behind ≠
      { rv := .none, operation := some operation, pathSeg := none } := by
    unfold parseBehind
    cases estParseOperation brski behind with
    | none =>
      intro h
      cases h
    | some found =>
      intro h
      cases h
  by_cases hlong : estMaxPathSegmentLen < third.text.length
  · rw [parseThird_long U brski beyond hlong]
    apply iff_of_false
    · intro h
      cases h
    · intro hselects
      exact absurd hselects.short (Nat.not_le_of_lt hlong)
  · have hshort := Nat.le_of_not_lt hlong
    unfold Selects
    by_cases htext : third.text = []
    · rw [parseThird_empty U brski beyond htext, if_pos htext]
      by_cases hend : (U.emptyRange ++ [0]).head? = some 0
      · rw [if_pos hend]
        constructor
        · intro h
          cases h
          exact ⟨hend, rfl⟩
        · intro h
          rw [h.2]
      · rw [if_neg hend]
        apply iff_of_false
        · intro h
          cases h
        · exact fun h => hend h.1
    · rw [if_neg htext]
      cases hbehind : third.behind with
      | nil =>
        rw [parseThird_end U brski beyond htext hshort hzero.1 hbehind,
          ← estParseOperation_eq_some_iff htext]
        cases estParseOperation brski third.text with
        | none => exact iff_of_false (hbehindOp _ _) (fun h => Option.some_ne_none _ h.2.symm)
        | some found =>
          constructor
          · intro h
            cases h
            exact ⟨rfl, rfl⟩
          · intro h
            rw [Option.some.inj h.2]
      | cons d more =>
        have hall := hzero.2
        rw [hbehind, List.mem_cons, not_or] at hall
        rw [parseThird_more U brski beyond htext hshort hbehind (Ne.symm hall.1) hall.2]
        apply iff_of_false
        · cases estParseOperation brski third.text with
          | none => exact hbehindOp _ _
          | some found =>
            intro h
            cases h
        · exact fun h => absurd h.1 (List.cons_ne_nil _ _)

end Segments

section Agreement

variable {U : UriParser} {brski : Bool}

theorem Canonical.targetPath {uri : Bytes} {operation : EstOperation}
    (h : Canonical brski uri operation) : TargetPath uri := by
  obtain ⟨name, hmem, rfl⟩ := h
  constructor
  · refine Or.inr ⟨ascii ".well-known/est/" ++ ascii name, rfl, ?_⟩
    show some 46 ≠ some 47
    decide
  · have hall : ∀ entry ∈ operations true, (0 : UInt8) ∉ ascii entry.1 := by decide +kernel
    rw [List.mem_append, not_or]
    exact ⟨by decide +kernel, hall _ (operations_subset _ hmem)⟩

theorem Canonical.routes {uri : Bytes} {operation : EstOperation}
    (h : Canonical brski uri operation) : Routes brski uri operation none := by
  obtain ⟨name, hmem, rfl⟩ := h
  exact .bare ⟨name, hmem, rfl⟩

theorem agree_of_canonical (hU : U.Lawful) {uri : Bytes} {operation : EstOperation}
    (h : Canonical brski uri operation) (beyond : Bytes) : Agree U brski uri beyond := by
  refine ⟨_, h.routes.result hU h.targetPath beyond, ?_⟩
  intro other
  rw [(estParseUriPlain_eq_iff uri operation).mpr h]

/-- Where the other build finds nothing, neither may this one, and it has to come to an
end. -/
theorem agree_iff_of_not_canonical {uri : Bytes}
    (h : ∀ operation, ¬ Canonical brski uri operation) (beyond : Bytes) :
    Agree U brski uri beyond ↔ ∃ parsed, estParseUri U brski uri beyond = some parsed ∧
      ∀ operation, parsed ≠ { rv := .none, operation := some operation, pathSeg := none } := by
  apply exists_congr
  intro parsed
  apply and_congr_right
  intro _
  apply forall_congr'
  intro operation
  rw [estParseUriPlain_eq_iff]
  exact iff_false_right (h operation)

/-- The builds agree on the URIs of the operations, and on those that have no operation in
the eyes of the build with `uriparser`. -/
theorem builds_agree_iff (hU : U.Lawful) (hsplits : SplitsUris U) {uri : Bytes} (hzero : 0 ∉ uri)
    (beyond : Bytes) :
    Agree U brski uri beyond ↔
      (∃ operation, Canonical brski uri operation) ∨ Unselective U brski uri := by
  by_cases hcanonical : ∃ operation, Canonical brski uri operation
  · obtain ⟨operation, h⟩ := hcanonical
    exact iff_of_true (agree_of_canonical hU h beyond) (Or.inl ⟨operation, h⟩)
  · rw [or_iff_right hcanonical, agree_iff_of_not_canonical (not_exists.mp hcanonical)]
    have hresult := @estParseUri_of_split U brski uri (hsplits.split uri) beyond
    have hinvalid : ∀ operation,
        invalidPath ≠ { rv := .none, operation := some operation, pathSeg := none } := by
      intro operation h
      cases h
    rw [hresult]
    unfold Unselective
    have hfound (parsed : ParsedUri) (p : ParsedUri → Prop) :
        (∃ other, some parsed = some other ∧ p other) ↔ p parsed := by
      constructor
      · intro hother
        obtain ⟨other, hsame, hp⟩ := hother
        rwa [Option.some.inj hsame]
      · exact fun hp => ⟨parsed, rfl, hp⟩
    cases hparse : U.parse uri with
    | none => exact iff_of_true ((hfound _ _).mpr hinvalid) trivial
    | some segs =>
      cases segs with
      | nil =>
        refine iff_of_true ((hfound _ _).mpr ?_) trivial
        intro operation h
        cases h
      | cons first segs =>
        cases segs with
        | nil =>
          dsimp only
          by_cases hbegins : first.begins U ".well-known" = true
          · rw [if_pos hbegins]
            apply iff_of_false
            · simp
            · exact not_not.mpr hbegins
          · rw [if_neg hbegins]
            exact iff_of_true ((hfound _ _).mpr hinvalid) hbegins
        | cons second segs =>
          cases segs with
          | nil =>
            dsimp only
            by_cases hpasses : passes U first second = true
            · rw [if_pos hpasses]
              apply iff_of_false
              · simp
              · exact not_not.mpr hpasses
            · rw [if_neg hpasses]
              exact iff_of_true ((hfound _ _).mpr hinvalid) hpasses
          | cons third segs =>
            dsimp only
            rw [hfound]
            by_cases hpasses : passes U first second = true
            · have hmem : third ∈ first :: second :: third :: segs := by simp
              have hclean : 0 ∉ third.text ++ third.behind := by
                intro hin
                exact hzero ((hsplits.within uri _ hparse third hmem).subset hin)
              rw [if_pos hpasses, imp_iff_right hpasses]
              apply forall_congr'
              intro operation
              exact not_congr (parseThird_eq_iff hclean beyond operation)
            · rw [if_neg hpasses]
              exact iff_of_true hinvalid (fun h => absurd h hpasses)

theorem segmentsFrom_within {seg : UriPathSegment} {rest : Bytes} :
    ∀ text, seg ∈ segmentsFrom text rest → seg.text ++ seg.behind <:+ text ++ rest := by
  induction rest with
  | nil =>
    intro text h
    rw [segmentsFrom, List.mem_singleton] at h
    rw [h]
  | cons c rest ih =>
    intro text h
    rw [segmentsFrom] at h
    by_cases hslash : c = 47
    · rw [if_pos hslash] at h
      cases List.mem_cons.mp h with
      | inl hfirst => rw [hfirst]
      | inr hlater =>
        apply (ih [] hlater).trans
        rw [List.nil_append]
        exact (List.suffix_cons c rest).trans (List.suffix_append text _)
    · rw [if_neg hslash] at h
      by_cases hdelimiter : isDelimiter c = true
      · rw [if_pos hdelimiter, List.mem_singleton] at h
        rw [h]
      · rw [if_neg hdelimiter] at h
        have hlater := ih (text ++ [c]) h
        rwa [List.append_assoc, List.singleton_append] at hlater

theorem pathParser_parse {uri : Bytes} {segs : List UriPathSegment}
    (h : pathParser.parse uri = some segs) :
    (∃ rest, uri = 47 :: rest ∧ segs = segmentsOf rest) ∨
      uri = ascii "*" ∧ segs = [⟨ascii "*", []⟩] := by
  simp only [pathParser] at h
  split at h
  · split at h
    · exact Or.inl ⟨_, rfl, (Option.some.inj h).symm⟩
    · cases h
  · split at h
    · rename_i hasterisk
      rw [hasterisk] at h
      exact Or.inr ⟨hasterisk, (Option.some.inj h).symm⟩
    · cases h

theorem pathParser_splitsUris : SplitsUris pathParser := by
  have hparts : ∀ uri segs, pathParser.parse uri = some segs → ∀ seg ∈ segs,
      seg.Split ∧ seg.text ++ seg.behind <:+ uri := by
    intro uri segs hparse seg hseg
    cases pathParser_parse hparse with
    | inl hslash =>
      obtain ⟨rest, rfl, rfl⟩ := hslash
      cases hsegs : segmentsOf rest with
      | nil =>
        rw [hsegs] at hseg
        exact absurd hseg List.not_mem_nil
      | cons first more =>
        rw [hsegs, ← segmentsOf_cons hsegs] at hseg
        constructor
        · exact split_of_mem (fun c hc => absurd hc List.not_mem_nil) hseg
        · exact (segmentsFrom_within [] hseg).trans (List.suffix_cons 47 rest)
    | inr hasterisk =>
      obtain ⟨rfl, rfl⟩ := hasterisk
      rw [List.mem_singleton.mp hseg]
      exact ⟨⟨by decide, Or.inl rfl⟩, List.suffix_refl _⟩
  constructor
  · exact fun uri segs hparse seg hseg => (hparts uri segs hparse seg hseg).1
  · exact fun uri segs hparse seg hseg => (hparts uri segs hparse seg hseg).2

theorem builds_agree_keygen :
    Agree pathParser true (ascii "/.well-known/est/serverkeygen") [] ∧
      Agree pathParser true (ascii "/.well-known/est/seg/serverkeygen") [] := by
  have hiff := fun uri => @builds_agree_iff pathParser true pathParser_lawful pathParser_splitsUris uri
  constructor
  · exact (hiff _ (by decide +kernel) []).mpr (Or.inl ⟨.serverKeygen, "serverkeygen", by decide, rfl⟩)
  · apply (hiff _ (by decide +kernel) []).mpr (Or.inr ?_)
    have hparse : pathParser.parse (ascii "/.well-known/est/seg/serverkeygen") =
        some [⟨ascii ".well-known", ascii "/est/seg/serverkeygen"⟩,
          ⟨ascii "est", ascii "/seg/serverkeygen"⟩, ⟨ascii "seg", ascii "/serverkeygen"⟩,
          ⟨ascii "serverkeygen", []⟩] := by
      decide +kernel
    rw [Unselective, hparse]
    intro _ operation hselects
    rw [Selects, if_neg (by decide)] at hselects
    exact absurd hselects.1 (by decide)

/-- The name of the operation in capitals, and a longer second segment. -/
theorem builds_disagree :
    ¬ Agree pathParser true (ascii "/.well-known/est/CACERTS") [] ∧
      ¬ Agree pathParser true (ascii "/.well-known/estate/cacerts") [] := by
  have hclash {uri : Bytes} {operation : EstOperation}
      (huri : estParseUri pathParser true uri [] =
        some { rv := .none, operation := some operation, pathSeg := none })
      (hplain : estParseUriPlain true uri = invalidPath) : ¬ Agree pathParser true uri [] := by
    intro hagree
    obtain ⟨parsed, hparsed, hiff⟩ := hagree
    rw [huri] at hparsed
    have hsame := (hiff operation).mp (Option.some.inj hparsed).symm
    rw [hplain] at hsame
    cases hsame
  constructor
  · exact @hclash _ .cacerts (by decide +kernel) (by decide +kernel)
  · exact @hclash _ .cacerts (by decide +kernel) (by decide +kernel)

end Agreement

end LibEst.Server.RoutingBuilds
