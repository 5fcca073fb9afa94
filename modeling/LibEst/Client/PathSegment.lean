import LibEst.Client.Api
import LibEst.Client.ReferenceEnv
import LibEst.Server.RoutingExact

/-! A path segment on its way from the application of a client to the one of a server. The
client checks it with `uriparser` and writes it into the request line as it is; the server
decodes and cleans the path before it splits it again. -/
namespace LibEst.Client.PathSegment

open LibEst.Basic LibEst.Base64 LibEst.Lib.ByteString LibEst.SafeStr LibEst.Server.AuthHeader
open LibEst.Client.Context LibEst.Client.Http LibEst.Client.Request LibEst.Client.Api
open LibEst.Server.HttpMessage LibEst.Server.Uri LibEst.Server.RoutingExact
open LibEst.Server.Routing hiding estMaxPathSegmentLen

section Validation

variable (U : UriParser) (brski : Bool)

/-- `est_parse_path_seg`, behind the prefix in a buffer of zeros. The outer null is a null
pointer in place of a third segment. -/
def estParsePathSeg (pathSeg : Bytes) : Option EstError :=
  match U.parse (ascii "/.well-known/est/" ++ pathSeg) with
  | none => some .httpInvalidPathSegment
  | some [] => some .httpInvalidPathSegment
  | some [_] | some [_, _] => none
  | some (_ :: _ :: third :: more) =>
      if (estParseOperation brski (cString (third.memory U []))).isSome then
        some .httpInvalidPathSegment
      else if more ≠ [] ∨ (third.afterLast U []).head? ≠ some 0 then some .httpInvalidPathSegment
      else some .none

variable {U} {brski}

theorem parse_canned (hU : U.Lawful) {tail : Bytes} {segs : List UriPathSegment}
    (h : U.parse (ascii "/.well-known/est/" ++ tail) = some segs) :
    segs = ⟨ascii ".well-known", ascii "/est/" ++ tail⟩ :: ⟨ascii "est", 47 :: tail⟩ ::
      segmentsFrom [] tail := by
  have hhead : (ascii ".well-known/est/" ++ tail).head? ≠ some 47 := by
    show some 46 ≠ some 47
    decide
  exact (hU.segments _ segs hhead h).trans (segmentsOf_wellKnown tail)

theorem segmentsFrom_ne_nil (text rest : Bytes) : segmentsFrom text rest ≠ [] := by
  obtain ⟨front, tail, -, -, -, hsegs⟩ := segmentsFrom_cases text rest
  cases hsegs with
  | inl hmore =>
    obtain ⟨more, -, hsegs⟩ := hmore
    rw [hsegs]
    exact List.cons_ne_nil _ _
  | inr hlast =>
    rw [hlast]
    exact List.cons_ne_nil _ _

/-- There always is a third segment behind the prefix. -/
theorem estParsePathSeg_isSome (hU : U.Lawful) (pathSeg : Bytes) :
    (estParsePathSeg U brski pathSeg).isSome := by
  unfold estParsePathSeg
  cases hparse : U.parse (ascii "/.well-known/est/" ++ pathSeg) with
  | none => rfl
  | some segs =>
    rw [parse_canned hU hparse]
    cases hthird : segmentsFrom [] pathSeg with
    | nil => exact absurd hthird (segmentsFrom_ne_nil _ _)
    | cons third more =>
      dsimp only
      split
      · rfl
      · split
        · rfl
        · rfl

/-- The one segment that is left of a text that the client accepts. -/
theorem third_of_accepted (hU : U.Lawful) {pathSeg : Bytes}
    (h : estParsePathSeg U brski pathSeg = some .none) :
    ∃ third, segmentsFrom [] pathSeg = [third] ∧
      U.parse (ascii "/.well-known/est/" ++ pathSeg) =
        some [⟨ascii ".well-known", ascii "/est/" ++ pathSeg⟩, ⟨ascii "est", 47 :: pathSeg⟩, third] ∧
      estParseOperation brski (cString (third.memory U [])) = none ∧
      (third.afterLast U []).head? = some 0 := by
  unfold estParsePathSeg at h
  cases hparse : U.parse (ascii "/.well-known/est/" ++ pathSeg) with
  | none =>
    rw [hparse] at h
    cases h
  | some segs =>
    rw [hparse] at h
    have hsegs := parse_canned hU hparse
    subst hsegs
    cases hthird : segmentsFrom [] pathSeg with
    | nil => exact absurd hthird (segmentsFrom_ne_nil _ _)
    | cons third more =>
      rw [hthird] at h
      simp only at h
      split at h
      · cases h
      · rename_i hop
        split at h
        · cases h
        · rename_i hlast
          obtain ⟨hmore, hend⟩ := not_or.mp hlast
          have hnil := not_not.mp hmore
          subst hnil
          exact ⟨third, rfl, rfl, Option.not_isSome_iff_eq_none.mp hop, not_not.mp hend⟩

/-- What the client accepts is one segment that may stand before an operation. -/
theorem isSegment_of_accepted (hU : U.Lawful) {pathSeg : Bytes}
    (h : estParsePathSeg U brski pathSeg = some .none)
    (hshort : pathSeg.length ≤ estMaxPathSegmentLen) : IsSegment brski pathSeg := by
  have hhead : (ascii ".well-known/est/" ++ pathSeg).head? ≠ some 47 := by
    show some 46 ≠ some 47
    decide
  obtain ⟨third, hsegs, hparse, hop, hend⟩ := third_of_accepted hU h
  obtain ⟨hrest, hsplit, -⟩ := segmentsFrom_cons hsegs
  have htext : third.text ≠ [] := by
    intro hnil
    rw [UriPathSegment.afterLast, if_pos hnil] at hend
    rw [UriPathSegment.memory, if_pos hnil] at hop
    cases hrange : U.emptyRange ++ [0] with
    | nil =>
      rw [hrange] at hend
      cases hend
    | cons c range =>
      rw [hrange] at hend hop
      cases hend
      cases hop
  have hbehind : third.behind = [] := by
    rw [UriPathSegment.afterLast, if_neg htext] at hend
    cases hsplit.ends with
    | inl hnil => exact hnil
    | inr hmore =>
      obtain ⟨c, more, hbehind, hc⟩ := hmore
      rw [hbehind] at hend
      cases hend
      exact absurd hc (by decide)
  rw [hbehind, List.append_nil] at hrest
  have hfree := hsplit.free
  have hclean : ∀ c, isDelimiter c → c ≠ 47 → c ∉ ascii ".well-known/est/" ++ pathSeg := by
    intro c hc hslash hmem
    cases List.mem_append.mp hmem with
    | inl hfront => exact hslash (delimiter_of_pathText (by decide +kernel) c hfront hc)
    | inr hback => exact hfree c (hrest ▸ hback) hc
  have hwhole := (hU.accepts _ hhead (hclean 63 (by decide) (by decide))
    (hclean 35 (by decide) (by decide))).mp (Option.isSome_of_eq_some hparse)
  have hpath : pathText pathSeg := pathText_of_append (by decide) hwhole
  have hzero : 0 ∉ pathSeg := fun hmem => absurd (mem_of_pathText hpath 0 hmem) (by decide)
  rw [UriPathSegment.memory, if_neg htext, hbehind, List.append_nil, ← hrest,
    cString_append_zero hzero] at hop
  rw [← hrest] at htext hfree
  exact {
    nonempty := htext
    short := hshort
    slashless := fun hmem => hfree 47 hmem rfl
    text := hpath
    other := (estParseOperation_eq_none_iff htext).mp hop }

end Validation

section RequestLine

variable (env : ClientEnv)

/-- The target of a request, as the server finds it in the lines of the client. -/
def sentTarget (ctx : ClientCtx) (method resource more : Bytes) : Bytes :=
  (parseHttpMessage maxHttpHeaders (requestLines env ctx method resource ++ more)).uri

/-- A word that ends at a space. -/
theorem skip_word {word : Bytes} (hspace : 32 ∉ word) (hzero : 0 ∉ word) {c : UInt8} (hc : c ≠ 32)
    (rest : Bytes) : skip (ascii " ") (word ++ 32 :: c :: rest) = (word, c :: rest) := by
  have hdelimiter : ∀ d ∈ word, d ∉ ascii " " := by
    intro d hd hmem
    rw [show ascii " " = [32] from by decide, List.mem_singleton] at hmem
    exact hspace (hmem ▸ hd)
  have hstop : (c :: rest).dropWhile (· ∈ ascii " ") = c :: rest := by
    apply List.dropWhile_cons_of_neg
    rw [decide_eq_true_eq, show ascii " " = [32] from by decide, List.mem_singleton]
    exact hc
  rw [skip, skipQuoted_plain (by decide) hdelimiter hzero, hstop]

/-- The target of a request line. -/
theorem parseHttpMessage_uri (limit : Nat) {m c : UInt8} {method target : Bytes}
    (hm : ¬ isspace m) (hmethod : 32 ∉ m :: method ∧ 0 ∉ m :: method)
    (htarget : 32 ∉ c :: target ∧ 0 ∉ c :: target) (rest : Bytes) :
    (parseHttpMessage limit ((m :: method) ++ 32 :: ((c :: target) ++ 32 :: 72 :: 84 :: rest))).uri =
      c :: target := by
  have hlast : ((m :: method) ++ 32 :: ((c :: target) ++ 32 :: 72 :: 84 :: rest)).dropLast =
      (m :: method) ++ 32 :: ((c :: target) ++ 32 :: 72 :: (84 :: rest).dropLast) := by
    have hsplit : (m :: method) ++ 32 :: ((c :: target) ++ 32 :: 72 :: 84 :: rest) =
        ((m :: method) ++ 32 :: ((c :: target) ++ [32, 72])) ++ 84 :: rest := by simp
    rw [hsplit, List.dropLast_append_of_ne_nil (List.cons_ne_nil _ _)]
    simp
  have hc : c ≠ 32 := fun heq => htarget.1 (heq ▸ List.mem_cons_self)
  have hfirst := skip_word hmethod.1 hmethod.2 hc (target ++ 32 :: 72 :: (84 :: rest).dropLast)
  have hsecond := skip_word htarget.1 htarget.2 (show (72 : UInt8) ≠ 32 by decide) (84 :: rest).dropLast
  rw [parseHttpMessage, hlast, List.cons_append, List.dropWhile_cons_of_neg hm]
  simp only [List.cons_append] at hfirst hsecond ⊢
  simp only [hfirst, hsecond]

/-- A target without spaces comes through the first line of a request. -/
theorem sentTarget_eq {ctx : ClientCtx} {seg : Bytes} (hctx : ctx.uriPathSegment = some seg)
    {method resource : Bytes} (hmethod : method = ascii "GET" ∨ method = ascii "POST")
    (hseg : ∀ c ∈ seg, pchar c ∨ c = 47 ∨ c = 37) (hresource : ∀ c ∈ resource, pchar c) (more : Bytes) :
    sentTarget env ctx method resource more =
      ascii "/.well-known/est/" ++ (seg ++ 47 :: resource) := by
  have hlines : ∃ rest, requestLines env ctx method resource ++ more =
      method ++ 32 :: ((ascii "/.well-known/est/" ++ (seg ++ 47 :: resource)) ++
        32 :: 72 :: 84 :: rest) := by
    have hslash : ascii "/" = [47] := by decide
    have hspace : ascii " " = [32] := by decide
    have hversion : ascii " HTTP/1.1" = 32 :: 72 :: 84 :: ascii "TP/1.1" := by decide
    have hprefix : ascii "/.well-known/est/" = estPathPrefix ++ [47] := by decide
    unfold requestLines pathSegment
    rw [hctx, hslash, hspace, hversion, hprefix]
    simp only [List.append_assoc, List.cons_append, List.nil_append]
    exact ⟨_, rfl⟩
  have hclean : ∀ c : UInt8, c = 32 ∨ c = 0 →
      c ∉ ascii "/.well-known/est/" ++ (seg ++ 47 :: resource) := by
    intro c hc hmem
    have hpath : pchar c ∨ c = 47 ∨ c = 37 := by
      rw [List.mem_append, List.mem_append, List.mem_cons] at hmem
      obtain hmem | hmem | hmem | hmem := hmem
      · exact mem_of_pathText (by decide +kernel) c hmem
      · exact hseg c hmem
      · exact Or.inr (Or.inl hmem)
      · exact Or.inl (hresource c hmem)
    cases hc with
    | inl h => rw [h] at hpath; exact absurd hpath (by decide)
    | inr h => rw [h] at hpath; exact absurd hpath (by decide)
  obtain ⟨rest, hrest⟩ := hlines
  rw [sentTarget, hrest]
  have htarget := And.intro (hclean 32 (Or.inl rfl)) (hclean 0 (Or.inr rfl))
  cases hmethod with
  | inl hget =>
    rw [hget]
    exact parseHttpMessage_uri maxHttpHeaders (by decide) (by decide) htarget rest
  | inr hpost =>
    rw [hpost]
    exact parseHttpMessage_uri maxHttpHeaders (by decide) (by decide) htarget rest

end RequestLine

section Decoding

/-- Escapes are whole within a segment, so that it is decoded on its own. -/
theorem urlDecode_segment {seg : Bytes} (h : pathText seg) (n : Nat) (tail : Bytes) :
    urlDecode (seg.length + n) (seg ++ tail) = urlDecode seg.length seg ++ urlDecode n tail := by
  fun_induction pathText seg with
  | case1 =>
    rw [List.length_nil, Nat.zero_add]
    rfl
  | case2 a b more ih =>
    rw [Bool.and_eq_true, Bool.and_eq_true] at h
    have hescape : (37 : UInt8) = 37 ∧ isxdigit a ∧ isxdigit b := ⟨rfl, h.1⟩
    have hlen : (37 :: a :: b :: more).length + n = more.length + n + 2 + 1 := by
      simp only [List.length_cons]
      omega
    have hlen' : (37 :: a :: b :: more).length = more.length + 2 + 1 := rfl
    rw [hlen, hlen', List.cons_append, List.cons_append, List.cons_append, urlDecode, if_pos hescape,
      urlDecode, if_pos hescape, Nat.add_sub_cancel, Nat.add_sub_cancel, ih h.2, List.cons_append]
  | case3 => cases h
  | case4 c rest hescape ih =>
    rw [Bool.and_eq_true] at h
    rw [List.length_cons, Nat.add_right_comm, List.cons_append, urlDecode_cons hescape,
      urlDecode_cons hescape, ih h.2, List.cons_append]

theorem urlDecode_length (n : Nat) (text : Bytes) : (urlDecode n text).length ≤ text.length := by
  fun_induction urlDecode n text with
  | case1 => exact Nat.zero_le _
  | case2 => exact Nat.le_refl _
  | case3 n c a b rest hescape ih =>
    simp only [List.length_cons]
    omega
  | case4 n c a b rest hescape ih => exact Nat.succ_le_succ ih
  | case5 n c rest hshort ih => exact Nat.succ_le_succ ih

theorem urlDecode_plain {text : Bytes} (h : 37 ∉ text) : urlDecode text.length text = text := by
  have happend := urlDecode_append h 0 []
  rwa [List.append_nil, show urlDecode 0 [] = [] from rfl, List.append_nil] at happend

/-- An escape makes a segment shorter. -/
theorem urlDecode_length_lt {seg : Bytes} (h : pathText seg) (hescape : 37 ∈ seg) :
    (urlDecode seg.length seg).length < seg.length := by
  fun_induction pathText seg with
  | case1 => exact absurd hescape List.not_mem_nil
  | case2 a b more ih =>
    rw [Bool.and_eq_true, Bool.and_eq_true] at h
    have hlen : (37 :: a :: b :: more).length = more.length + 2 + 1 := rfl
    have hmore := urlDecode_length more.length more
    rw [hlen, urlDecode, if_pos ⟨rfl, h.1⟩, Nat.add_sub_cancel, List.length_cons]
    omega
  | case3 => cases h
  | case4 c rest hplain ih =>
    rw [Bool.and_eq_true] at h
    have hrest : 37 ∈ rest := (List.mem_cons.mp hescape).resolve_left (Ne.symm hplain)
    rw [List.length_cons, urlDecode_cons hplain, List.length_cons]
    exact Nat.succ_lt_succ (ih h.2 hrest)

/-- What is left of a segment and an operation behind the prefix. -/
def arrived (seg name : Bytes) : Bytes :=
  removeDoubleDots true (cString (urlDecode seg.length seg ++ 47 :: name))

/-- The prefix is as it should be, and ends in a slash. -/
theorem removeDoubleDots_prefix (tail : Bytes) :
    removeDoubleDots false (ascii "/.well-known/est/" ++ tail) =
      ascii "/.well-known/est/" ++ removeDoubleDots true tail := by
  have hwell : ascii "/.well-known/est/" = 47 :: (46 :: (ascii "well-known" ++
      47 :: (101 :: (ascii "st" ++ [47])))) := by decide
  rw [hwell]
  simp only [List.cons_append, List.append_assoc, List.nil_append]
  rw [removeDoubleDots_cons, show isSlash 47 = true from rfl, removeDoubleDots_start (by decide) _,
    removeDoubleDots_front (by decide), removeDoubleDots_cons, show isSlash 47 = true from rfl,
    removeDoubleDots_start (by decide) _, removeDoubleDots_front (by decide), removeDoubleDots_cons]
  · rfl
  · exact fun h => absurd h.1 (by decide)
  · intro h
    have hhead : some (119 : UInt8) = some 46 := h.2
    exact absurd hhead (by decide)

/-- What the server makes of the target that a client has sent. -/
theorem targetPath_sent {seg name : Bytes} (hseg : pathText seg)
    (hshort : seg.length ≤ estMaxPathSegmentLen) (hname : ∀ c ∈ name, pchar c)
    (hnameLen : name.length ≤ estMaxPathSegmentLen - 2) :
    targetPath (ascii "/.well-known/est/" ++ (seg ++ 47 :: name)) =
      ascii "/.well-known/est/" ++ arrived seg name := by
  have hquery : (ascii "/.well-known/est/" ++ (seg ++ 47 :: name)).takeWhile (· ≠ 63) =
      ascii "/.well-known/est/" ++ (seg ++ 47 :: name) := by
    rw [List.takeWhile_eq_self_iff]
    intro c hc
    rw [decide_eq_true_eq]
    intro hmark
    have htext : pathText (ascii "/.well-known/est/" ++ (seg ++ 47 :: name)) :=
      pathText_append (by decide +kernel) (pathText_append hseg
        ((pathText_cons (by decide) _).mpr ⟨Or.inr rfl, pathText_of_pchar hname⟩))
    rw [hmark] at hc
    exact absurd (delimiter_of_pathText htext 63 hc (by decide)) (by decide)
  have hplain : 37 ∉ 47 :: name := by
    intro hmem
    cases List.mem_cons.mp hmem with
    | inl h => exact absurd h (by decide)
    | inr h => exact absurd (hname 37 h) (by decide)
  have hlen : min (ascii "/.well-known/est/" ++ (seg ++ 47 :: name)).length estUriMaxLen =
      (ascii "/.well-known/est/").length + (seg.length + (47 :: name).length) := by
    have hfixed : (ascii "/.well-known/est/").length = 17 := by decide
    unfold estMaxPathSegmentLen at hshort hnameLen
    simp only [List.length_append, List.length_cons, hfixed, estUriMaxLen]
    omega
  have htail : urlDecode (47 :: name).length (47 :: name) = 47 :: name := urlDecode_plain hplain
  rw [targetPath, hquery, decodeTarget, hlen, urlDecode_append (by decide), urlDecode_segment hseg,
    htail, cString_front (by decide), removeDoubleDots_prefix, arrived]

end Decoding

section Arrival

/-- What the names of the operations have in common. -/
structure OperationText (name : Bytes) : Prop where
  first : ∃ c rest, name = c :: rest ∧ c ≠ 46
  chars : ∀ c ∈ name, pchar c ∧ ¬ isSlash c
  short : name.length ≤ estMaxPathSegmentLen - 2

theorem operationText {brski : Bool} {entry : String × EstOperation}
    (h : entry ∈ operations brski) : OperationText (ascii entry.1) := by
  have hall : ∀ entry ∈ operations true, (ascii entry.1).head? ≠ none ∧
      (ascii entry.1).head? ≠ some 46 ∧ (∀ c ∈ ascii entry.1, pchar c ∧ ¬ isSlash c) ∧
      (ascii entry.1).length ≤ estMaxPathSegmentLen - 2 := by
    decide +kernel
  obtain ⟨hne, hdot, hchars, hshort⟩ := hall entry (operations_subset entry h)
  refine ⟨?_, hchars, hshort⟩
  cases hname : ascii entry.1 with
  | nil =>
    rw [hname] at hne
    exact absurd rfl hne
  | cons c rest =>
    rw [hname] at hdot
    exact ⟨c, rest, rfl, fun hc => hdot (congrArg some hc)⟩

theorem removeDoubleDots_name {name : Bytes} (h : OperationText name) :
    removeDoubleDots true name = name := by
  obtain ⟨c, rest, rfl, hdot⟩ := h.first
  have hrest := removeDoubleDots_front
    (fun d hd => (h.chars d (List.mem_cons_of_mem c hd)).2) ([] : Bytes)
  rw [List.append_nil, show removeDoubleDots false [] = [] from rfl, List.append_nil] at hrest
  rw [removeDoubleDots_start (h.chars c List.mem_cons_self).2 fun hdots => hdot hdots.1, hrest]

variable {brski : Bool} {seg name : Bytes}

theorem not_isSlash_of_segment (hseg : IsSegment brski seg) : ∀ c ∈ seg, ¬ isSlash c := by
  intro c hc hslash
  rw [isSlash, decide_eq_true_eq] at hslash
  cases hslash with
  | inl h => exact hseg.slashless (h ▸ hc)
  | inr h =>
    rw [h] at hc
    exact absurd (mem_of_pathText hseg.text 92 hc) (by decide)

theorem zero_not_mem_sent (hseg : IsSegment brski seg) (hname : OperationText name) :
    0 ∉ seg ++ 47 :: name := by
  intro hmem
  rw [List.mem_append, List.mem_cons] at hmem
  obtain h | h | h := hmem
  · exact absurd (mem_of_pathText hseg.text 0 h) (by decide)
  · exact absurd h (by decide)
  · exact absurd (hname.chars 0 h).1 (by decide)

/-- A segment without escapes and without dots at its front arrives as it is. -/
theorem arrived_plain (hseg : IsSegment brski seg) (hname : OperationText name)
    (hescape : 37 ∉ seg) (hdots : ¬ ascii ".." <+: seg) : arrived seg name = seg ++ 47 :: name := by
  rw [arrived, urlDecode_plain hescape, cString_eq_self (zero_not_mem_sent hseg hname)]
  have hslash := not_isSlash_of_segment hseg
  cases hcons : seg with
  | nil => exact absurd hcons hseg.nonempty
  | cons c rest =>
    rw [hcons] at hslash hdots
    have hfirst : ¬ (c = 46 ∧ (rest ++ 47 :: name).head? = some 46) := by
      intro h
      cases rest with
      | nil =>
        have hhead : some (47 : UInt8) = some 46 := h.2
        exact absurd hhead (by decide)
      | cons d rest =>
        have hd : d = 46 := Option.some.inj h.2
        apply hdots
        rw [h.1, hd]
        exact ⟨rest, rfl⟩
    rw [List.cons_append, removeDoubleDots_start (hslash c List.mem_cons_self) hfirst,
      removeDoubleDots_front (fun d hd => hslash d (List.mem_cons_of_mem c hd)),
      removeDoubleDots_cons, show isSlash 47 = true from rfl, removeDoubleDots_name hname]

theorem cString_length (text : Bytes) : (cString text).length ≤ text.length :=
  (List.takeWhile_prefix _).length_le

/-- An escape or dots at the front make what arrives shorter. -/
theorem arrived_length_lt (hseg : IsSegment brski seg) (h : 37 ∈ seg ∨ ascii ".." <+: seg) :
    (arrived seg name).length < seg.length + 1 + name.length := by
  have hkept := removeDoubleDots_length true (cString (urlDecode seg.length seg ++ 47 :: name))
  have hcut := cString_length (urlDecode seg.length seg ++ 47 :: name)
  rw [List.length_append, List.length_cons] at hcut
  rw [arrived]
  by_cases hescape : 37 ∈ seg
  · have hdecoded := urlDecode_length_lt hseg.text hescape
    omega
  · obtain ⟨rest, hrest⟩ := h.resolve_left hescape
    rw [urlDecode_plain hescape, ← hrest]
    have hrestCut := cString_length (rest ++ 47 :: name)
    have hrestKept := removeDoubleDots_length true (cString (rest ++ 47 :: name))
    have hskip : removeDoubleDots true (cString (ascii ".." ++ rest ++ 47 :: name)) =
        removeDoubleDots true (cString (rest ++ 47 :: name)) := by
      rw [List.append_assoc, cString_front (by decide)]
      rfl
    have hdots : (ascii "..").length = 2 := by decide
    rw [hskip]
    simp only [List.length_append, List.length_cons, hdots] at hrestCut ⊢
    omega

theorem removeDoubleDots_slash {c : UInt8} (h : isSlash c) (rest : Bytes) :
    removeDoubleDots true (c :: rest) = removeDoubleDots true rest := by
  conv_lhs => unfold removeDoubleDots
  rw [if_pos ⟨rfl, h⟩]

/-- Behind a slash, a text loses slashes and keeps the others or nothing but a name. -/
def Cleaned (name text : Bytes) : Prop :=
  (∃ c ∈ removeDoubleDots true text, isSlash c) ∨ removeDoubleDots true text = name

theorem cleaned_cons {c : UInt8} {rest : Bytes}
    (hplain : ∃ d ∈ removeDoubleDots false rest, isSlash d) (hslash : Cleaned name rest)
    (hdots : ∀ more, rest = 46 :: more → Cleaned name more) :
    (∃ d ∈ removeDoubleDots false (c :: rest), isSlash d) ∧ Cleaned name (c :: rest) := by
  obtain ⟨d, hd, hdslash⟩ := hplain
  by_cases hc : isSlash c
  · constructor
    · rw [removeDoubleDots_cons]
      exact ⟨c, List.mem_cons_self, hc⟩
    · rw [Cleaned, removeDoubleDots_slash hc]
      exact hslash
  · constructor
    · rw [removeDoubleDots_cons, eq_false_of_ne_true hc]
      exact ⟨d, List.mem_cons_of_mem c hd, hdslash⟩
    · by_cases hpair : c = 46 ∧ rest.head? = some 46
      · obtain ⟨more, rfl⟩ := List.head?_eq_some_iff.mp hpair.2
        rw [Cleaned, hpair.1]
        exact hdots more rfl
      · rw [Cleaned, removeDoubleDots_start hc hpair]
        exact Or.inl ⟨d, List.mem_cons_of_mem c hd, hdslash⟩

/-- The slash before the operation stays, or there is nothing but the operation. -/
theorem slash_or_name (hname : OperationText name) (front : Bytes) :
    (∃ c ∈ removeDoubleDots false (front ++ 47 :: name), isSlash c) ∧
      Cleaned name (front ++ 47 :: name) := by
  have hnil : (∃ c ∈ removeDoubleDots false (47 :: name), isSlash c) ∧ Cleaned name (47 :: name) := by
    constructor
    · rw [removeDoubleDots_cons]
      exact ⟨47, List.mem_cons_self, rfl⟩
    · rw [Cleaned, removeDoubleDots_slash rfl]
      exact Or.inr (removeDoubleDots_name hname)
  induction front using List.twoStepInduction with
  | nil => exact hnil
  | singleton c =>
    apply cleaned_cons hnil.1 hnil.2
    intro more hmore
    cases hmore
  | cons_cons c d front ih ihd =>
    apply cleaned_cons (ihd d).1 (ihd d).2
    intro more hmore
    cases hmore
    exact ih.2

theorem cString_length_of_zero (front back : Bytes) :
    (cString (front ++ 0 :: back)).length ≤ front.length := by
  induction front with
  | nil => exact Nat.zero_le _
  | cons c front ih =>
    rw [cString, List.cons_append, List.takeWhile_cons]
    split
    · exact Nat.succ_le_succ ih
    · exact Nat.zero_le _

/-- What arrives has a slash in it, or is the operation alone, or is shorter than the
segment, where an escape was that of a zero. -/
theorem arrived_shape (hname : OperationText name) :
    (∃ c ∈ arrived seg name, isSlash c) ∨ arrived seg name = name ∨
      (arrived seg name).length < seg.length := by
  by_cases hzero : 0 ∈ urlDecode seg.length seg
  · have hdecoded := urlDecode_length seg.length seg
    obtain ⟨front, back, hsplit⟩ := List.append_of_mem hzero
    have hcut := cString_length_of_zero front (back ++ 47 :: name)
    have hkept := removeDoubleDots_length true (cString (front ++ 0 :: (back ++ 47 :: name)))
    have hfront := congrArg List.length hsplit
    rw [List.length_append, List.length_cons] at hfront
    rw [arrived, hsplit, List.append_assoc, List.cons_append]
    exact Or.inr (Or.inr (by omega))
  · rw [arrived, cString_front hzero, cString_eq_self]
    · cases (slash_or_name hname (urlDecode seg.length seg)).2 with
      | inl hslash => exact Or.inl hslash
      | inr halone => exact Or.inr (Or.inl halone)
    · intro hmem
      cases List.mem_cons.mp hmem with
      | inl h => exact absurd h (by decide)
      | inr h => exact absurd (hname.chars 0 h).1 (by decide)

end Arrival

section RoundTrip

variable {U : UriParser} {brski : Bool}

/-- How a segment comes to be passed back together with an operation. -/
theorem parseThird_labelled {third : UriPathSegment} {beyond seg : Bytes} {operation : EstOperation}
    (hzero : 0 ∉ third.text ++ third.behind)
    (h : parseThird U brski third beyond =
      { rv := .none, operation := some operation, pathSeg := some seg }) :
    third.text = seg ∧ (third.behind = [] ∨
      ∃ d more, third.behind = d :: more ∧ estParseOperation brski more = some operation) := by
  rw [List.mem_append, not_or] at hzero
  by_cases hlong : Server.Routing.estMaxPathSegmentLen < third.text.length
  · rw [parseThird_long U brski beyond hlong] at h
    cases h
  · by_cases htext : third.text = []
    · rw [parseThird_empty U brski beyond htext] at h
      split at h
      · cases h
      · cases h
    · cases hbehind : third.behind with
      | nil =>
        rw [parseThird_end U brski beyond htext (Nat.not_lt.mp hlong) hzero.1 hbehind] at h
        split at h
        · cases h
        · rw [parseBehind] at h
          split at h
          · cases h
          · cases h
            exact ⟨rfl, Or.inl rfl⟩
      | cons d more =>
        have hd : d ≠ 0 := by
          intro hd
          rw [hbehind, hd] at hzero
          exact hzero.2 List.mem_cons_self
        have hmore : 0 ∉ more := fun hmem => hzero.2 (by rw [hbehind]; exact List.mem_cons_of_mem d hmem)
        rw [parseThird_more U brski beyond htext (Nat.not_lt.mp hlong) hbehind hd hmore] at h
        split at h
        · cases h
        · rw [parseBehind] at h
          split at h
          · cases h
          · rename_i hop
            cases h
            exact ⟨rfl, Or.inr ⟨d, more, rfl, hop⟩⟩

/-- The server reads the operation and the segment of every request that a client with that
path segment sends. -/
def RoundTrips (U : UriParser) (brski : Bool) (env : ClientEnv) (ctx : ClientCtx) (seg : Bytes) :
    Prop :=
  ∀ entry ∈ operations brski, ∀ method, method = ascii "GET" ∨ method = ascii "POST" →
    ∀ more behind, routeTarget U brski (sentTarget env ctx method (ascii entry.1) more) behind =
      some { rv := .none, operation := some entry.2, pathSeg := some seg }

/-- What must have been behind the prefix, where the server has read a segment. -/
theorem labelled_path (hU : U.Lawful) {tail beyond seg : Bytes} {operation : EstOperation}
    (hpath : TargetPath (ascii "/.well-known/est/" ++ tail))
    (h : estParseUri U brski (ascii "/.well-known/est/" ++ tail) beyond =
      some { rv := .none, operation := some operation, pathSeg := some seg }) :
    tail = seg ∨
      ∃ d more, tail = seg ++ d :: more ∧ estParseOperation brski more = some operation := by
  rw [estParseUri_eq hU hpath] at h
  cases hparse : U.parse (ascii "/.well-known/est/" ++ tail) with
  | none =>
    rw [hparse] at h
    cases h
  | some segs =>
    rw [hparse, parse_canned hU hparse] at h
    cases hsegs : segmentsFrom [] tail with
    | nil => exact absurd hsegs (segmentsFrom_ne_nil _ _)
    | cons third later =>
      have hrest := (segmentsFrom_cons hsegs).1
      have hzero : 0 ∉ third.text ++ third.behind :=
        fun hmem => hpath.text (List.mem_append_right _ (hrest ▸ hmem))
      rw [hsegs] at h
      simp only [Option.some.injEq] at h
      split at h
      · obtain ⟨htext, hbehind⟩ := parseThird_labelled hzero h
        rw [hrest, htext]
        cases hbehind with
        | inl hnil => exact Or.inl (by rw [hnil, List.append_nil])
        | inr hmore =>
          obtain ⟨d, more, hbehind, hop⟩ := hmore
          exact Or.inr ⟨d, more, by rw [hbehind], hop⟩
      · cases h

theorem isValidUri_sent (tail : Bytes) : isValidUri (ascii "/.well-known/est/" ++ tail) := by
  rw [isValidUri, decide_eq_true_eq]
  exact Or.inl ⟨ascii ".well-known/est/" ++ tail, rfl⟩

/-- The path of every request with an accepted segment, on the side of the server. -/
theorem routeTarget_sent (env : ClientEnv) {ctx : ClientCtx} {seg : Bytes}
    (hctx : ctx.uriPathSegment = some seg) (hseg : IsSegment brski seg)
    {entry : String × EstOperation} (hentry : entry ∈ operations brski) {method : Bytes}
    (hmethod : method = ascii "GET" ∨ method = ascii "POST") (more behind : Bytes) :
    ∃ beyond, TargetPath (ascii "/.well-known/est/" ++ arrived seg (ascii entry.1)) ∧
      routeTarget U brski (sentTarget env ctx method (ascii entry.1) more) behind =
        estParseUri U brski (ascii "/.well-known/est/" ++ arrived seg (ascii entry.1)) beyond := by
  have hname := operationText hentry
  have hsent := sentTarget_eq env hctx hmethod (mem_of_pathText hseg.text)
    (fun c hc => (hname.chars c hc).1) more
  have hpath := targetPath_sent hseg.text hseg.short (fun c hc => (hname.chars c hc).1) hname.short
  have hshape := targetPath_shape (isValidUri_sent (seg ++ 47 :: ascii entry.1))
  rw [hpath] at hshape
  rw [routeTarget, hsent, hpath]
  exact ⟨_, hshape, rfl⟩

theorem reenroll_length {text : Bytes} (h : IsOperation brski text .simpleReenroll) :
    text.length = (ascii "simplereenroll").length := by
  obtain ⟨name, hmem, htext⟩ := h
  have hall : ∀ entry ∈ operations true, entry.2 = .simpleReenroll →
      (ascii entry.1).length = (ascii "simplereenroll").length := by
    decide +kernel
  have hlength := congrArg List.length htext
  rw [List.length_map, List.length_map] at hlength
  rw [hlength]
  exact hall _ (operations_subset _ hmem) rfl

/-- A segment round trips just where it has no escape in it and no dots at its front. -/
theorem roundTrips_iff (hU : U.Lawful) (env : ClientEnv) {ctx : ClientCtx} {seg : Bytes}
    (hctx : ctx.uriPathSegment = some seg) (hseg : IsSegment brski seg) :
    RoundTrips U brski env ctx seg ↔ 37 ∉ seg ∧ ¬ ascii ".." <+: seg := by
  constructor
  · intro h
    rw [← not_or]
    intro hbad
    have hentry : ("simplereenroll", EstOperation.simpleReenroll) ∈ operations brski := by
      cases brski
      · decide
      · decide
    have hname := operationText hentry
    have hresult := h _ hentry _ (Or.inr rfl) [] []
    obtain ⟨beyond, hpath, hroute⟩ := @routeTarget_sent U brski env ctx seg hctx hseg _ hentry _
      (Or.inr rfl) [] []
    rw [hroute] at hresult
    have hlength := @arrived_length_lt brski seg (ascii "simplereenroll") hseg hbad
    cases labelled_path hU hpath hresult with
    | inl halone =>
      -- the operation would have to be beyond the path, but a slash of it is not
      obtain ⟨c, hc, hslash⟩ | hname | hshort := @arrived_shape seg _ hname
      · rw [halone] at hc
        exact not_isSlash_of_segment hseg c hc hslash
      · rw [halone] at hname
        exact hseg.other .simpleReenroll ⟨_, hentry, by rw [hname]⟩
      · rw [halone] at hshort
        exact Nat.lt_irrefl _ hshort
    | inr hlabel =>
      obtain ⟨d, more, harrived, hop⟩ := hlabel
      have hne : more ≠ [] := by
        intro hnil
        rw [hnil, estParseOperation_nil] at hop
        cases hop
      have hmore := reenroll_length ((estParseOperation_eq_some_iff hne).mp hop)
      rw [harrived, List.length_append, List.length_cons, hmore] at hlength
      omega
  · intro hplain entry hentry method hmethod more behind
    have hname := operationText hentry
    obtain ⟨beyond, hpath, hroute⟩ := @routeTarget_sent U brski env ctx seg hctx hseg _ hentry _
      hmethod more behind
    rw [arrived_plain hseg hname hplain.1 hplain.2] at hroute hpath
    rw [hroute]
    exact (Routes.labelled hseg ⟨entry.1, hentry, rfl⟩).result hU hpath beyond

/-- A call that succeeds has put the segment into the context. -/
theorem setServer_accepted {env : ClientEnv} {ctx ctx' : ClientCtx} {server seg : Bytes} {port : Int}
    (h : estClientSetServer env ctx (some server) port (some seg) = (ctx', .none)) :
    ctx'.uriPathSegment = some seg ∧ seg.length ≤ estMaxPathSegmentLen ∧
      env.parsePathSeg seg = .none := by
  unfold estClientSetServer at h
  split at h
  · cases h
  · simp only at h
    split at h
    · cases h
    · split at h
      · cases h
      · split at h
        · cases h
        · rename_i hshort
          split at h
          · rename_i hfailed
            exact absurd (congrArg Prod.snd h) hfailed
          · rename_i haccepted
            cases h
            exact ⟨rfl, Nat.not_lt.mp fun hlong => hshort (Or.inr hlong), not_not.mp haccepted⟩

/-- A path segment that the client accepts reaches the application of the server as it is,
with every operation, just where it has no escape in it and no dots at its front. -/
theorem path_segment_round_trip_iff (hU : U.Lawful) {env : ClientEnv}
    (henv : ∀ seg, estParsePathSeg U brski seg = some (env.parsePathSeg seg))
    {ctx ctx' : ClientCtx} {server seg : Bytes} {port : Int}
    (h : estClientSetServer env ctx (some server) port (some seg) = (ctx', .none)) :
    RoundTrips U brski env ctx' seg ↔ 37 ∉ seg ∧ ¬ ascii ".." <+: seg := by
  obtain ⟨hctx, hshort, hparsed⟩ := setServer_accepted h
  have haccepted : estParsePathSeg U brski seg = some .none := by rw [henv, hparsed]
  exact roundTrips_iff hU env hctx (isSegment_of_accepted hU haccepted hshort)

/-- A client with the validation of path segments in place. -/
def segmentEnv : ClientEnv :=
  { ReferenceEnv.clientEnv with
    parsePathSeg := fun seg => (estParsePathSeg pathParser true seg).getD .none }

theorem segmentEnv_parses (seg : Bytes) :
    estParsePathSeg pathParser true seg = some (segmentEnv.parsePathSeg seg) := by
  have hsome := @estParsePathSeg_isSome pathParser true pathParser_lawful seg
  obtain ⟨rv, hrv⟩ := Option.isSome_iff_exists.mp hsome
  simp only [segmentEnv, hrv, Option.getD_some]

/-- A client of a server under a path segment. -/
def tenantCtx (seg : Bytes) : ClientCtx :=
  { Reference.hostCtx with
    estServer := strcpyS estMaxServernameLen (ascii "ca.example") []
    estPortNum := 443
    uriPathSegment := some seg }

theorem tenant_accepted {seg : Bytes} (hne : seg ≠ []) (hshort : seg.length ≤ estMaxPathSegmentLen)
    (hparsed : segmentEnv.parsePathSeg seg = .none) :
    estClientSetServer segmentEnv Reference.hostCtx (some (ascii "ca.example")) 443 (some seg) =
      (tenantCtx seg, .none) := by
  have hinitialized : Reference.hostCtx.estClientInitialized = true := rfl
  have hlength : ¬ estMaxServernameLen < (ascii "ca.example").length := by decide
  have hseg : ¬ (seg = [] ∨ estMaxPathSegmentLen < seg.length) :=
    not_or.mpr ⟨hne, Nat.not_lt.mpr hshort⟩
  rw [estClientSetServer, hinitialized, if_neg (not_not.mpr rfl)]
  simp only [if_neg hlength, if_neg hseg, hparsed]
  rfl

theorem path_segment_round_trip_tenant :
    pathParser.Lawful ∧
      (∀ seg, estParsePathSeg pathParser true seg = some (segmentEnv.parsePathSeg seg)) ∧
      estClientSetServer segmentEnv Reference.hostCtx (some (ascii "ca.example")) 443
        (some (ascii "tenant:1")) = (tenantCtx (ascii "tenant:1"), .none) ∧
      RoundTrips pathParser true segmentEnv (tenantCtx (ascii "tenant:1")) (ascii "tenant:1") := by
  have haccepted := tenant_accepted (show ascii "tenant:1" ≠ [] by decide) (by decide)
    (by decide +kernel)
  exact ⟨pathParser_lawful, segmentEnv_parses, haccepted,
    (path_segment_round_trip_iff pathParser_lawful segmentEnv_parses haccepted).mpr (by decide)⟩

/-- The server sees the letter that is behind an escape. -/
theorem escaped_segment_decoded :
    estClientSetServer segmentEnv Reference.hostCtx (some (ascii "ca.example")) 443
        (some (ascii "a%41")) = (tenantCtx (ascii "a%41"), .none) ∧
      routeTarget pathParser true
          (sentTarget segmentEnv (tenantCtx (ascii "a%41")) (ascii "GET") (ascii "cacerts") []) [] =
        some { rv := .none, operation := some .cacerts, pathSeg := some (ascii "aA") } ∧
      ¬ RoundTrips pathParser true segmentEnv (tenantCtx (ascii "a%41")) (ascii "a%41") := by
  have haccepted := tenant_accepted (show ascii "a%41" ≠ [] by decide) (by decide) (by decide +kernel)
  have hroute : routeTarget pathParser true
      (sentTarget segmentEnv (tenantCtx (ascii "a%41")) (ascii "GET") (ascii "cacerts") []) [] =
        some { rv := .none, operation := some .cacerts, pathSeg := some (ascii "aA") } := by
    decide +kernel
  refine ⟨haccepted, hroute, ?_⟩
  intro h
  have hsame := h ("cacerts", .cacerts) (by decide) (ascii "GET") (Or.inl rfl) [] []
  rw [hroute] at hsame
  exact absurd hsame (by decide)

end RoundTrip

end LibEst.Client.PathSegment
