import Mathlib.Data.List.Sort
import Mathlib.Data.List.Perm.Basic
import Mathlib.Order.Compare

/-! A fixed array of slots kept in key order. Free slots hold one blank record;
an entry is found by binary search, taken into a free slot or given back, and
every change of a key is followed by a sort of the whole array. -/
namespace LibEst.Lib.SlotArray

variable {α κ : Type}

/-- The part of the table invariant that does not depend on the order: a slot
with the blank key is blank, and no other key occurs twice. -/
structure WellFormed (key : α → κ) (blank : α) (xs : List α) : Prop where
  free_blank : ∀ x ∈ xs, key x = key blank → x = blank
  distinct : xs.Pairwise fun x y => key x = key y → key x = key blank

variable {key : α → κ} {blank : α}

theorem WellFormed.perm {xs ys : List α} (h : WellFormed key blank xs) (hp : xs.Perm ys) :
    WellFormed key blank ys where
  free_blank x hx := h.free_blank x (hp.mem_iff.mpr hx)
  distinct := by
    refine (hp.pairwise_iff ?_).mp h.distinct
    intro x y hxy hyx
    rw [hyx]
    exact hxy hyx.symm

theorem wellFormed_cons_iff {x : α} {rest : List α} :
    WellFormed key blank (x :: rest) ↔
      (key x = key blank → x = blank) ∧
      (key x ≠ key blank → ∀ y ∈ rest, key y ≠ key x) ∧ WellFormed key blank rest := by
  constructor
  · rintro ⟨hblank, hdistinct⟩
    rw [List.pairwise_cons] at hdistinct
    refine ⟨hblank x (by simp), ?_, fun y hy => hblank y (by simp [hy]), hdistinct.2⟩
    intro hx y hy hyx
    exact hx (hdistinct.1 y hy hyx.symm)
  · rintro ⟨hblank, hfresh, hrest⟩
    constructor
    · intro y hy
      rcases List.mem_cons.mp hy with rfl | hy
      · exact hblank
      · exact hrest.free_blank y hy
    · rw [List.pairwise_cons]
      refine ⟨?_, hrest.distinct⟩
      intro y hy hxy
      by_contra hx
      exact hfresh hx y hy hxy.symm

theorem wellFormed_replicate (n : Nat) : WellFormed key blank (List.replicate n blank) where
  free_blank _ hx _ := List.eq_of_mem_replicate hx
  distinct := List.pairwise_replicate.mpr (Or.inr fun _ => rfl)

theorem WellFormed.grow {xs : List α} (h : WellFormed key blank xs) (n : Nat) :
    WellFormed key blank (xs ++ List.replicate n blank) where
  free_blank x hx := by
    intro hkey
    rcases List.mem_append.mp hx with hx | hx
    · exact h.free_blank x hx hkey
    · exact List.eq_of_mem_replicate hx
  distinct := by
    rw [List.pairwise_append]
    refine ⟨h.distinct, (wellFormed_replicate n).distinct, ?_⟩
    intro x _ y hy hxy
    rw [hxy, List.eq_of_mem_replicate hy]

/-- Two different positions of a well-formed array never hold the same entry. -/
theorem WellFormed.index_unique {xs : List α} (h : WellFormed key blank xs) {i j : Nat} {x y : α}
    (hi : xs[i]? = some x) (hj : xs[j]? = some y) (hxy : key x = key y)
    (hx : key x ≠ key blank) : i = j := by
  obtain ⟨hi', rfl⟩ := List.getElem?_eq_some_iff.mp hi
  obtain ⟨hj', rfl⟩ := List.getElem?_eq_some_iff.mp hj
  have hd := List.pairwise_iff_getElem.mp h.distinct
  rcases Nat.lt_trichotomy i j with hlt | heq | hgt
  · exact absurd (hd i j hi' hj' hlt hxy) hx
  · exact heq
  · exact absurd (hd j i hj' hi' hgt hxy.symm) (hxy ▸ hx)

section Contents

variable [DecidableEq κ]

/-- The abstract table: what the array holds under a key. -/
def contents (key : α → κ) (xs : List α) (k : κ) : Option α :=
  xs.find? fun x => key x = k

def used (key : α → κ) (blank : α) (xs : List α) : Nat :=
  xs.countP fun x => key x ≠ key blank

theorem contents_key {xs : List α} {k : κ} {x : α} (h : contents key xs k = some x) :
    key x = k := by
  simpa using List.find?_some h

theorem contents_mem {xs : List α} {k : κ} {x : α} (h : contents key xs k = some x) : x ∈ xs :=
  List.mem_of_find?_eq_some h

theorem contents_eq_none_iff {xs : List α} {k : κ} :
    contents key xs k = none ↔ ∀ x ∈ xs, key x ≠ k := by
  simp [contents]

theorem contents_cons (x : α) (rest : List α) (k : κ) :
    contents key (x :: rest) k = if key x = k then some x else contents key rest k := by
  by_cases h : key x = k <;> simp [contents, h]

theorem contents_eq_some_iff {xs : List α} (h : WellFormed key blank xs) {k : κ}
    (hk : k ≠ key blank) {x : α} : contents key xs k = some x ↔ x ∈ xs ∧ key x = k := by
  constructor
  · exact fun hx => ⟨contents_mem hx, contents_key hx⟩
  · rintro ⟨hmem, hkey⟩
    induction xs with
    | nil => cases hmem
    | cons y rest ih =>
      obtain ⟨-, hfresh, hrest⟩ := wellFormed_cons_iff.mp h
      rw [contents_cons]
      by_cases hy : key y = k
      · rcases List.mem_cons.mp hmem with rfl | hmem
        · simp [hy]
        · exact absurd (hkey.trans hy.symm) (hfresh (hy ▸ hk) x hmem)
      · rcases List.mem_cons.mp hmem with rfl | hmem
        · exact absurd hkey hy
        · simp [hy, ih hrest hmem]

/-- Order does not matter to what a well-formed array holds. -/
theorem contents_perm {xs ys : List α} (h : WellFormed key blank xs) (hp : xs.Perm ys) {k : κ}
    (hk : k ≠ key blank) : contents key xs k = contents key ys k := by
  apply Option.ext
  intro x
  rw [contents_eq_some_iff h hk, contents_eq_some_iff (h.perm hp) hk, hp.mem_iff]

theorem used_cons (x : α) (rest : List α) :
    used key blank (x :: rest) = used key blank rest + if key x = key blank then 0 else 1 := by
  by_cases h : key x = key blank <;> simp [used, h]

theorem used_perm {xs ys : List α} (hp : xs.Perm ys) :
    used key blank xs = used key blank ys := hp.countP_eq _

@[simp] theorem used_replicate (n : Nat) : used key blank (List.replicate n blank) = 0 := by
  simp [used, List.countP_eq_zero]

theorem contents_replicate {n : Nat} {k : κ} (hk : k ≠ key blank) :
    contents key (List.replicate n blank) k = none := by
  rw [contents_eq_none_iff]
  intro x hx
  rw [List.eq_of_mem_replicate hx]
  exact hk.symm

/-- More blank slots behind the array change nothing about what it holds. -/
theorem contents_grow (xs : List α) (n : Nat) {k : κ} (hk : k ≠ key blank) :
    contents key (xs ++ List.replicate n blank) k = contents key xs k := by
  have hnone := contents_replicate (n := n) hk
  unfold contents at hnone ⊢
  rw [List.find?_append, hnone, Option.or_none]

/-- An array with no blank slot is full. -/
theorem used_eq_length (key : α → κ) (blank : α) {xs : List α} (h : ∀ x ∈ xs, key x ≠ key blank) :
    used key blank xs = xs.length :=
  List.countP_eq_length.mpr fun x hx => by simpa using h x hx

private theorem filter_used_perm {xs ys : List α} (hx : WellFormed key blank xs)
    (hy : WellFormed key blank ys)
    (hcontents : ∀ k, k ≠ key blank → contents key xs k = contents key ys k) :
    (xs.filter fun x => key x ≠ key blank).Perm (ys.filter fun x => key x ≠ key blank) := by
  have hnodup : ∀ {zs : List α}, WellFormed key blank zs →
      (zs.filter fun x => key x ≠ key blank).Nodup := by
    intro zs hz
    refine (hz.distinct.filter _).imp_of_mem ?_
    intro x y hmem _ hdistinct heq
    subst heq
    have hx := (List.mem_filter.mp hmem).2
    simp only [ne_eq, decide_not, Bool.not_eq_true', decide_eq_false_iff_not] at hx
    exact hx (hdistinct rfl)
  refine (List.perm_ext_iff_of_nodup (hnodup hx) (hnodup hy)).mpr ?_
  intro x
  simp only [List.mem_filter, ne_eq, decide_not, Bool.not_eq_true', decide_eq_false_iff_not]
  constructor
  · rintro ⟨hmem, hkey⟩
    have hfound := (contents_eq_some_iff hx hkey).mpr ⟨hmem, rfl⟩
    rw [hcontents _ hkey] at hfound
    exact ⟨contents_mem hfound, hkey⟩
  · rintro ⟨hmem, hkey⟩
    have hfound := (contents_eq_some_iff hy hkey).mpr ⟨hmem, rfl⟩
    rw [← hcontents _ hkey] at hfound
    exact ⟨contents_mem hfound, hkey⟩

private theorem filter_free_eq {xs : List α} (h : WellFormed key blank xs) :
    (xs.filter fun x => !decide (key x ≠ key blank)) =
      List.replicate (xs.length - used key blank xs) blank := by
  rw [List.eq_replicate_iff]
  constructor
  · have htotal := List.length_eq_countP_add_countP (fun x => decide (key x ≠ key blank)) (l := xs)
    rw [← List.countP_eq_length_filter]
    simp only [used]
    simp only [decide_not, Bool.not_eq_true, Bool.decide_eq_false, ne_eq, Bool.not_not] at htotal ⊢
    omega
  · intro x hx
    obtain ⟨hmem, hfree⟩ := List.mem_filter.mp hx
    refine h.free_blank x hmem ?_
    simpa using hfree

/-- A well-formed array is determined, up to order, by its size and what it holds. -/
theorem perm_of_contents {xs ys : List α} (hx : WellFormed key blank xs)
    (hy : WellFormed key blank ys) (hlen : xs.length = ys.length)
    (hused : used key blank xs = used key blank ys)
    (hcontents : ∀ k, k ≠ key blank → contents key xs k = contents key ys k) : xs.Perm ys := by
  have hsplit := fun zs : List α =>
    List.filter_append_perm (fun x => decide (key x ≠ key blank)) zs
  refine (hsplit xs).symm.trans (List.Perm.trans ?_ (hsplit ys))
  rw [filter_free_eq hx, filter_free_eq hy, hlen, hused]
  exact (filter_used_perm hx hy hcontents).append_right _

end Contents

theorem perm_cons_eraseIdx {xs : List α} {i : Nat} {x : α} (h : xs[i]? = some x) :
    xs.Perm (x :: xs.eraseIdx i) := by
  obtain ⟨hi, rfl⟩ := List.getElem?_eq_some_iff.mp h
  exact (List.getElem_cons_eraseIdx_perm hi).symm

theorem set_perm {xs : List α} {i : Nat} {x : α} (h : xs[i]? = some x) (y : α) :
    (xs.set i y).Perm (y :: xs.eraseIdx i) :=
  List.set_perm_cons_eraseIdx (List.getElem?_eq_some_iff.mp h).1 y

section Updates

variable {xs : List α} {i : Nat}

/-- Taking a blank slot for a key that the array does not hold yet. -/
theorem WellFormed.occupy (h : WellFormed key blank xs) (hi : xs[i]? = some blank) {x : α}
    (hx : key x ≠ key blank) (hfresh : ∀ y ∈ xs, key y ≠ key x) :
    WellFormed key blank (xs.set i x) := by
  refine WellFormed.perm ?_ (set_perm hi x).symm
  have hrest := (wellFormed_cons_iff.mp (h.perm (perm_cons_eraseIdx hi))).2.2
  refine wellFormed_cons_iff.mpr ⟨fun heq => absurd heq hx, ?_, hrest⟩
  exact fun _ y hy => hfresh y (List.mem_of_mem_eraseIdx hy)

/-- Giving a slot back. -/
theorem WellFormed.vacate (h : WellFormed key blank xs) {x : α} (hi : xs[i]? = some x) :
    WellFormed key blank (xs.set i blank) := by
  refine WellFormed.perm ?_ (set_perm hi blank).symm
  have hrest := (wellFormed_cons_iff.mp (h.perm (perm_cons_eraseIdx hi))).2.2
  exact wellFormed_cons_iff.mpr ⟨fun _ => rfl, fun hne => absurd rfl hne, hrest⟩

/-- Changing an entry in place, under its old key. -/
theorem WellFormed.overwrite (h : WellFormed key blank xs) {x y : α} (hi : xs[i]? = some x)
    (hkey : key y = key x) (hx : key x ≠ key blank) :
    WellFormed key blank (xs.set i y) := by
  refine WellFormed.perm ?_ (set_perm hi y).symm
  obtain ⟨-, hfresh, hrest⟩ := wellFormed_cons_iff.mp (h.perm (perm_cons_eraseIdx hi))
  refine wellFormed_cons_iff.mpr ⟨?_, ?_, hrest⟩
  · intro heq
    exact absurd (hkey.symm.trans heq) hx
  · intro _ z hz
    rw [hkey]
    exact hfresh hx z hz

variable [DecidableEq κ]

/-- One rule for every change of a slot: what the array holds afterwards. -/
theorem contents_set (h : WellFormed key blank xs) {x y : α} (hi : xs[i]? = some x)
    (hy : WellFormed key blank (xs.set i y)) {k : κ} (hk : k ≠ key blank) :
    contents key (xs.set i y) k =
      if key y = k then some y else if key x = k then none else contents key xs k := by
  rw [contents_perm hy (set_perm hi y) hk, contents_cons,
    contents_perm h (perm_cons_eraseIdx hi) hk, contents_cons]
  by_cases hyk : key y = k
  · simp [hyk]
  · by_cases hxk : key x = k
    · have hfresh := (wellFormed_cons_iff.mp (h.perm (perm_cons_eraseIdx hi))).2.1
      simp only [hyk, hxk, if_false, if_true]
      rw [contents_eq_none_iff]
      intro z hz
      rw [← hxk]
      exact hfresh (hxk ▸ hk) z hz
    · simp [hyk, hxk]

theorem used_set (key : α → κ) (blank : α) {x : α} (hi : xs[i]? = some x) (y : α) :
    used key blank (xs.set i y) + (if key x = key blank then 0 else 1) =
      used key blank xs + if key y = key blank then 0 else 1 := by
  rw [used_perm (set_perm hi y), used_perm (perm_cons_eraseIdx hi), used_cons, used_cons]
  omega

end Updates

section Sorting

variable [Ord κ]

def Sorted (key : α → κ) (xs : List α) : Prop :=
  xs.Pairwise fun x y => (compare (key x) (key y)).isLE

/-- The `qsort` and `bsearch` of a C library, with what its specification
promises for arrays compared by `key`. Which of several equal elements a search
returns, and the order of equal elements after a sort, are left open. -/
structure Sorter (key : α → κ) where
  qsort : List α → List α
  bsearch : κ → List α → Option Nat
  qsort_perm : ∀ xs, (qsort xs).Perm xs
  qsort_sorted : ∀ xs, Sorted key (qsort xs)
  bsearch_some : ∀ {k xs i}, Sorted key xs → bsearch k xs = some i →
    ∃ x, xs[i]? = some x ∧ key x = k
  bsearch_none : ∀ {k xs}, Sorted key xs → bsearch k xs = none → ∀ x ∈ xs, key x ≠ k

theorem sorted_replicate [Std.ReflOrd κ] (n : Nat) (x : α) :
    Sorted key (List.replicate n x) :=
  List.pairwise_replicate.mpr (Or.inr (by rw [Std.ReflOrd.compare_self]; rfl))

theorem Sorted.overwrite {xs : List α} {i : Nat} (h : Sorted key xs) {x y : α} (hi : xs[i]? = some x)
    (hkey : key y = key x) : Sorted key (xs.set i y) := by
  have hmap : (xs.set i y).map key = xs.map key := by
    obtain ⟨hi', rfl⟩ := List.getElem?_eq_some_iff.mp hi
    rw [List.map_set, hkey, ← List.getElem_map key (h := by simpa using hi'),
      List.set_getElem_self]
  have hkeys : ((xs.set i y).map key).Pairwise fun k l => (compare k l).isLE := by
    rw [hmap]
    exact List.pairwise_map.mpr h
  exact List.pairwise_map.mp hkeys

/-- The halving loop of a C library: the interval `[lo, hi)` is still open. -/
def searchLoop (key : α → κ) (k : κ) (xs : List α) : Nat → Nat → Nat → Option Nat
  | 0, _, _ => none
  | fuel + 1, lo, hi =>
      if lo < hi then
        match xs[(lo + hi) / 2]? with
        | none => none
        | some x =>
            match compare k (key x) with
            | .lt => searchLoop key k xs fuel lo ((lo + hi) / 2)
            | .gt => searchLoop key k xs fuel ((lo + hi) / 2 + 1) hi
            | .eq => some ((lo + hi) / 2)
      else none

private theorem searchLoop_some [Std.LawfulEqOrd κ] {k : κ} {xs : List α} {fuel lo hi i : Nat}
    (h : searchLoop key k xs fuel lo hi = some i) : ∃ x, xs[i]? = some x ∧ key x = k := by
  induction fuel generalizing lo hi with
  | zero => cases h
  | succ fuel ih =>
    simp only [searchLoop] at h
    split at h
    · split at h
      · cases h
      · rename_i x hx
        split at h
        · exact ih h
        · exact ih h
        · rename_i heq
          cases h
          exact ⟨x, hx, (Std.LawfulEqOrd.eq_of_compare heq).symm⟩
    · cases h

private theorem sorted_getElem? {xs : List α} (h : Sorted key xs) {i j : Nat} (hij : i < j)
    {x y : α} (hi : xs[i]? = some x) (hj : xs[j]? = some y) :
    (compare (key x) (key y)).isLE := by
  obtain ⟨hi', rfl⟩ := List.getElem?_eq_some_iff.mp hi
  obtain ⟨hj', rfl⟩ := List.getElem?_eq_some_iff.mp hj
  exact List.pairwise_iff_getElem.mp h i j hi' hj' hij

private theorem searchLoop_none [Std.TransOrd κ] [Std.LawfulEqOrd κ] {k : κ} {xs : List α}
    (hs : Sorted key xs) {fuel lo hi : Nat} (hfuel : hi - lo ≤ fuel) (hhi : hi ≤ xs.length)
    (h : searchLoop key k xs fuel lo hi = none) {j : Nat} (hlo : lo ≤ j) (hj : j < hi) {y : α}
    (hy : xs[j]? = some y) : key y ≠ k := by
  induction fuel generalizing lo hi with
  | zero => omega
  | succ fuel ih =>
    simp only [searchLoop, if_pos (show lo < hi by omega)] at h
    split at h
    · rename_i hmid
      have := List.getElem?_eq_none_iff.mp hmid
      omega
    · rename_i x hx
      split at h
      · -- the key is below the middle: nothing from the middle on can match
        rename_i hlt
        by_cases hjm : j < (lo + hi) / 2
        · exact ih (by omega) (by omega) h hlo hjm
        · rintro rfl
          rcases Nat.eq_or_lt_of_le (Nat.le_of_not_lt hjm) with rfl | hmj
          · rw [hx] at hy
            cases hy
            rw [Std.ReflOrd.compare_self] at hlt
            cases hlt
          · have hle := sorted_getElem? hs hmj hx hy
            rw [Std.OrientedOrd.eq_swap, hlt] at hle
            cases hle
      · rename_i hgt
        by_cases hjm : (lo + hi) / 2 < j
        · exact ih (by omega) hhi h hjm hj
        · rintro rfl
          rcases Nat.eq_or_lt_of_le (Nat.le_of_not_lt hjm) with rfl | hmj
          · rw [hx] at hy
            cases hy
            rw [Std.ReflOrd.compare_self] at hgt
            cases hgt
          · have hle := sorted_getElem? hs hmj hy hx
            rw [hgt] at hle
            cases hle
      · cases h

/-- A sorter that runs: insertion sort and the halving search. -/
def reference [Std.TransOrd κ] [Std.LawfulEqOrd κ] (key : α → κ) : Sorter key where
  qsort := List.insertionSort fun x y => (compare (key x) (key y)).isLE
  bsearch k xs := searchLoop key k xs xs.length 0 xs.length
  qsort_perm := List.perm_insertionSort _
  qsort_sorted := by
    have : Std.Total fun x y : α => (compare (key x) (key y)).isLE = true := ⟨by
      intro x y
      rw [Std.OrientedOrd.eq_swap (a := key y)]
      cases compare (key x) (key y) <;> simp⟩
    have : IsTrans α fun x y : α => (compare (key x) (key y)).isLE = true :=
      ⟨fun _ _ _ => Std.TransCmp.isLE_trans⟩
    exact List.pairwise_insertionSort _
  bsearch_some _ h := searchLoop_some h
  bsearch_none hs h x hx := by
    obtain ⟨j, hj, rfl⟩ := List.getElem_of_mem hx
    exact searchLoop_none hs (by omega) le_rfl h (Nat.zero_le j) hj (List.getElem?_eq_getElem hj)

end Sorting

end LibEst.Lib.SlotArray
