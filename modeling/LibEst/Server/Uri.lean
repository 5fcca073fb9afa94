import LibEst.Server.HttpMessage

/-! The rewriting of a request target in the buffer of a connection: the query is cut
off, escapes are decoded, and runs of slashes and dots are taken out. All of it happens
in place, so that what is behind the end of the path is left over from before. -/
namespace LibEst.Server.Uri

open LibEst.Basic LibEst.Lib.ByteString LibEst.SafeStr LibEst.Server.AuthHeader
open LibEst.Server.HttpMessage

def estUriMaxLen : Nat := 272

section Decoding

def isxdigit (c : UInt8) : Bool := isdigit c ∨ (97 ≤ tolower c ∧ tolower c ≤ 102)

def hextoi (c : UInt8) : UInt8 := if isdigit c then c - 48 else tolower c - 87

/-- `url_decode` on the first bytes of a text, which is no form data. Both digits of an
escape may be behind the bytes it is to decode. -/
def urlDecode : (srcLen : Nat) → Bytes → Bytes
  | 0, _ => []
  | _ + 1, [] => []
  | n + 1, c :: a :: b :: rest =>
      if c = 37 ∧ isxdigit a ∧ isxdigit b then (hextoi a * 16 + hextoi b) :: urlDecode (n - 2) rest
      else c :: urlDecode n (a :: b :: rest)
  | n + 1, c :: rest => c :: urlDecode n rest

example : urlDecode 9 (ascii "/%2e%41%z") = ascii "/.A%z" := by decide +kernel

def isSlash (c : UInt8) : Bool := c = 47 ∨ c = 92

/-- `remove_double_dots_and_double_slashes`, behind a slash or not. -/
def removeDoubleDots : (behindSlash : Bool) → Bytes → Bytes
  | _, [] => []
  | behindSlash, c :: rest =>
      if behindSlash ∧ isSlash c then removeDoubleDots true rest
      else
        match rest with
        | [] => [c]
        | d :: more =>
            if behindSlash ∧ c = 46 ∧ d = 46 then removeDoubleDots true more
            else c :: removeDoubleDots (isSlash c) (d :: more)

example : removeDoubleDots false (ascii "/a//..\\b/../") = ascii "/a/b/" := by decide +kernel

/-- A text and its zero, written over the front of a memory. -/
def overwrite (text memory : Bytes) : Bytes := text ++ 0 :: memory.drop (text.length + 1)

def decodeTarget (path : Bytes) : Bytes :=
  removeDoubleDots false (cString (urlDecode (min path.length estUriMaxLen) path))

end Decoding

section Buffer

/-- The memory of a target once its query has been cut off it. -/
def cutQuery (target behind : Bytes) : Bytes :=
  match target.dropWhile (· ≠ 63) with
  | [] => target ++ 0 :: behind
  | _ :: query => target.takeWhile (· ≠ 63) ++ 0 :: (query ++ 0 :: behind)

/-- The path that `handle_request` makes of a target. -/
def targetPath (target : Bytes) : Bytes := decodeTarget (target.takeWhile (· ≠ 63))

/-- What is behind the zero that ends the path. -/
def behindPath (target behind : Bytes) : Bytes :=
  let cut := target.takeWhile (· ≠ 63)
  let decoded := overwrite (urlDecode (min cut.length estUriMaxLen) cut) (cutQuery target behind)
  decoded.drop ((targetPath target).length + 1)

end Buffer

section Rewriting

theorem removeDoubleDots_cons (c : UInt8) (rest : Bytes) :
    removeDoubleDots false (c :: rest) = c :: removeDoubleDots (isSlash c) rest := by
  cases rest with
  | nil => simp [removeDoubleDots]
  | cons d rest => simp [removeDoubleDots]

theorem removeDoubleDots_subset {behindSlash : Bool} {text : Bytes} {c : UInt8}
    (h : c ∈ removeDoubleDots behindSlash text) : c ∈ text := by
  fun_induction removeDoubleDots behindSlash text with
  | case1 => exact h
  | case2 behindSlash c' rest hskip ih => exact List.mem_cons_of_mem _ (ih h)
  | case3 => exact h
  | case4 behindSlash c' hskip d more hdots ih =>
    exact List.mem_cons_of_mem _ (List.mem_cons_of_mem _ (ih h))
  | case5 behindSlash c' hskip d more hdots ih =>
    cases List.mem_cons.mp h with
    | inl heq => exact heq ▸ List.mem_cons_self
    | inr hmem => exact List.mem_cons_of_mem _ (ih hmem)

/-- Slashes behind a slash are taken out. -/
theorem removeDoubleDots_head {text : Bytes} : (removeDoubleDots true text).head? ≠ some 47 := by
  generalize hbehind : true = behindSlash
  have hfirst : ∀ c : UInt8, ¬ isSlash c → some c ≠ some 47 := by
    intro c hkeep heq
    cases heq
    exact hkeep rfl
  fun_induction removeDoubleDots behindSlash text with
  | case1 => exact (Option.some_ne_none 47).symm
  | case2 behindSlash c rest hskip ih => exact ih rfl
  | case3 behindSlash c hskip => exact hfirst c fun hslash => hskip ⟨hbehind.symm, hslash⟩
  | case4 behindSlash c hskip d more hdots ih => exact ih rfl
  | case5 behindSlash c hskip d more hdots ih =>
    exact hfirst c fun hslash => hskip ⟨hbehind.symm, hslash⟩

theorem urlDecode_cons {c : UInt8} (h : c ≠ 37) (n : Nat) (rest : Bytes) :
    urlDecode (n + 1) (c :: rest) = c :: urlDecode n rest := by
  match rest with
  | [] => rfl
  | [a] => rfl
  | a :: b :: rest =>
    rw [urlDecode, if_neg]
    exact fun hescape => h hescape.1

theorem urlDecode_append {front : Bytes} (h : 37 ∉ front) (n : Nat) (tail : Bytes) :
    urlDecode (front.length + n) (front ++ tail) = front ++ urlDecode n tail := by
  induction front with
  | nil => rw [List.length_nil, Nat.zero_add, List.nil_append, List.nil_append]
  | cons c front ih =>
    have hc : c ≠ 37 := fun heq => h (heq ▸ List.mem_cons_self)
    rw [List.length_cons, Nat.add_right_comm, List.cons_append, urlDecode_cons hc,
      ih fun hmem => h (List.mem_cons_of_mem c hmem), List.cons_append]

theorem removeDoubleDots_length (behindSlash : Bool) (text : Bytes) :
    (removeDoubleDots behindSlash text).length ≤ text.length := by
  fun_induction removeDoubleDots behindSlash text with
  | case1 => exact Nat.le_refl _
  | case2 behindSlash c rest hskip ih => exact Nat.le_succ_of_le ih
  | case3 => exact Nat.le_refl _
  | case4 behindSlash c hskip d more hdots ih => exact Nat.le_succ_of_le (Nat.le_succ_of_le ih)
  | case5 behindSlash c hskip d more hdots ih => exact Nat.succ_le_succ ih

/-- A text without slashes stays as it is, but for dots at its front. -/
theorem removeDoubleDots_front {front : Bytes} (h : ∀ c ∈ front, ¬ isSlash c) (tail : Bytes) :
    removeDoubleDots false (front ++ tail) = front ++ removeDoubleDots false tail := by
  induction front with
  | nil => rfl
  | cons c front ih =>
    have hc : isSlash c = false := eq_false_of_ne_true (h c List.mem_cons_self)
    rw [List.cons_append, removeDoubleDots_cons, hc,
      ih fun d hd => h d (List.mem_cons_of_mem c hd), List.cons_append]

theorem removeDoubleDots_start {c : UInt8} {rest : Bytes} (hslash : ¬ isSlash c)
    (hdots : ¬ (c = 46 ∧ rest.head? = some 46)) :
    removeDoubleDots true (c :: rest) = c :: removeDoubleDots false rest := by
  have hc : isSlash c = false := eq_false_of_ne_true hslash
  cases rest with
  | nil => simp [removeDoubleDots, hc]
  | cons d rest =>
    have hpair : ¬ (c = 46 ∧ d = 46) := fun h => hdots ⟨h.1, by rw [h.2]; rfl⟩
    simp [removeDoubleDots, hc, hpair]

end Rewriting

end LibEst.Server.Uri
