import LibEst.Base64

/-! The string functions of the bounds-checking library, as its stub has them. A
string is the list of its characters up to the terminating zero. -/
namespace LibEst.SafeStr

open LibEst.Base64 LibEst.Lib.ByteString

/-- `strcpy_s` is `strncpy`: a text that fills the destination leaves no room for
the terminating zero, and reading the copy goes on into what lies behind. -/
def strcpyS (dmax : Nat) (src behind : Bytes) : Bytes :=
  if src.length < dmax then src else src.take dmax ++ behind

theorem strcpyS_of_lt {dmax : Nat} {src : Bytes} (h : src.length < dmax) (behind : Bytes) :
    strcpyS dmax src behind = src := if_pos h

/-- `strncpy_s` of up to `slen` characters, null where they leave no room for the zero. -/
def strncpyS (dmax slen : Nat) (src : Bytes) : Option Bytes :=
  if min src.length slen < dmax then some (src.take slen) else none

theorem strncpyS_of_lt {dmax slen : Nat} (h : slen < dmax) (src : Bytes) :
    strncpyS dmax slen src = some (src.take slen) :=
  if_pos (Nat.lt_of_le_of_lt (Nat.min_le_right _ _) h)

/-- What `strtok_s` returns and stores. The context pointer is left alone where
the token ends with the string. -/
structure Token where
  token : Option Bytes
  ptr : Option Bytes
  dmax : Nat
  deriving DecidableEq, Repr

/-- The second loop: the end of a token whose characters so far are `token`. -/
def tokenEnd (delimiters : Bytes) (token : Bytes) : Bytes → Nat → Token
  | [], dlen => { token := some token, ptr := none, dmax := dlen }
  | c :: rest, dlen =>
      if dlen = 0 then { token := none, ptr := none, dmax := dlen }
      else if c ∈ delimiters then { token := some token, ptr := some rest, dmax := dlen - 1 }
      else tokenEnd delimiters (token ++ [c]) rest (dlen - 1)

/-- The first loop skips delimiters; at most sixteen of them are looked at. -/
def strtokS (delimiters : Bytes) : Bytes → Nat → Token
  | [], dlen => { token := none, ptr := none, dmax := dlen }
  | c :: rest, dlen =>
      if dlen = 0 then { token := none, ptr := none, dmax := dlen }
      else if c ∈ delimiters then strtokS delimiters rest (dlen - 1)
      else tokenEnd delimiters [c] rest (dlen - 1)

example : strtokS (ascii ":") (ascii "user:a:b") 8 =
    { token := some (ascii "user"), ptr := some (ascii "a:b"), dmax := 3 } := by decide

theorem tokenEnd_delimiter {delimiters front : Bytes} {d : UInt8} (hd : d ∈ delimiters)
    (hfront : ∀ c ∈ front, c ∉ delimiters) (token rest : Bytes) {dlen : Nat}
    (hdlen : front.length < dlen) :
    tokenEnd delimiters token (front ++ d :: rest) dlen =
      { token := some (token ++ front), ptr := some rest, dmax := dlen - front.length - 1 } := by
  induction front generalizing token dlen with
  | nil =>
    rw [List.nil_append, tokenEnd, if_neg (by simp at hdlen; omega), if_pos hd, List.append_nil]
    rfl
  | cons c front ih =>
    rw [List.length_cons] at hdlen
    rw [List.cons_append, tokenEnd, if_neg (by omega), if_neg (hfront c (by simp)),
      ih (fun x hx => hfront x (by simp [hx])) _ (by omega)]
    simp only [List.append_assoc, List.cons_append, List.nil_append, List.length_cons,
      Token.mk.injEq, true_and]
    omega

/-- A token at the front of a string ends before the first delimiter, and the
context pointer keeps all that is behind it. -/
theorem strtokS_front {delimiters front : Bytes} {d : UInt8} (hd : d ∈ delimiters)
    (hfront : ∀ c ∈ front, c ∉ delimiters) (hne : front ≠ []) (rest : Bytes) {dlen : Nat}
    (hdlen : front.length < dlen) :
    strtokS delimiters (front ++ d :: rest) dlen =
      { token := some front, ptr := some rest, dmax := dlen - front.length - 1 } := by
  cases front with
  | nil => exact absurd rfl hne
  | cons c front =>
    rw [List.length_cons] at hdlen
    rw [List.cons_append, strtokS, if_neg (by omega), if_neg (hfront c (by simp)),
      tokenEnd_delimiter hd (fun x hx => hfront x (by simp [hx])) _ _ (by omega)]
    simp only [List.cons_append, List.nil_append, List.length_cons, Token.mk.injEq, true_and]
    omega

section Search

/-- `strstr`: the text from the first occurrence on. -/
def strstr (pattern : Bytes) : Bytes → Option Bytes
  | [] => if pattern = [] then some [] else none
  | c :: rest => if pattern.isPrefixOf (c :: rest) then some (c :: rest) else strstr pattern rest

example : strstr (ascii "b") (ascii "abc") = some (ascii "bc") := by decide

end Search

section Numbers

def isdigit (c : UInt8) : Bool := 48 ≤ c ∧ c ≤ 57

/-- The number that decimal digits denote. -/
def digitsValue (digits : Bytes) : Nat :=
  digits.foldl (fun n c => 10 * n + (c.toNat - 48)) 0

/-- `strtol` in base ten behind the whitespace: a sign, the digits, and the limits
of a long integer. -/
def strtol (text : Bytes) : Int :=
  let digits (rest : Bytes) : Nat := digitsValue (rest.takeWhile isdigit)
  match text with
  | 45 :: rest => max (-(digits rest : Int)) (-2 ^ 63)
  | 43 :: rest => min (digits rest : Int) (2 ^ 63 - 1)
  | rest => min (digits rest : Int) (2 ^ 63 - 1)

/-- A conversion to a 32-bit integer keeps the low bits. -/
def toInt32 (n : Int) : Int := (n + 2 ^ 31) % 2 ^ 32 - 2 ^ 31

def atoi (text : Bytes) : Int := toInt32 (strtol (text.dropWhile isspace))

example : atoi (ascii " 512") = 512 ∧ atoi (ascii "4294967295") = -1 := by decide

end Numbers

end LibEst.SafeStr
