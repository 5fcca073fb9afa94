import LibEst.Lib.ByteString
import LibEst.Lib.Loop

/-! The tokens of a JSON text, as `jsmn.c` finds them where it is built without the
strict mode and without links to parents. Which token belongs to which is only counted
in the sizes of the tokens; nobody reads them, and the model does without. -/
namespace LibEst.Client.Jsmn

open LibEst.Lib.ByteString LibEst.Lib.Loop

inductive JsmnType where
  | object
  | array
  | string
  | primitive
  deriving DecidableEq, Repr

inductive JsmnError where
  | nomem
  | inval
  | part
  deriving DecidableEq, Repr

/-- A token from `start` up to `stop`, which is null where an object or an array is
still open. A string is without its quotes. -/
structure JsmnTok where
  type : JsmnType
  start : Nat
  stop : Option Nat
  deriving DecidableEq, Repr

section Scanning

def quote : UInt8 := 34
def backslash : UInt8 := 92

def whitespace : Bytes := ascii "\t\r\n "

/-- What ends a primitive. -/
def primitiveEnds : Bytes := ascii ":\t\r\n ,]" ++ [125]

/-- The length of a primitive, null where it has a character that is not printable. -/
def jsmnParsePrimitive : Bytes → Option Nat
  | [] => some 0
  | c :: rest =>
      if c = 0 ∨ c ∈ primitiveEnds then some 0
      else if c < 32 ∨ 127 ≤ c then none
      else (jsmnParsePrimitive rest).map (· + 1)

/-- What may stand behind a backslash, apart from the letter of a code point. -/
def escapes : Bytes := [quote, backslash] ++ ascii "/bfrnt"

def isHex (c : UInt8) : Bool := (48 ≤ c ∧ c ≤ 57) ∨ (65 ≤ c ∧ c ≤ 70) ∨ (97 ≤ c ∧ c ≤ 102)

/-- Where in a string the next character stands: behind a backslash, or in a code
point with so many more digits to come. -/
inductive StringMode where
  | plain
  | escaped
  | digits (more : Nat)

/-- The length of a string, which ends at the quote. -/
def jsmnParseString : StringMode → Bytes → Except JsmnError Nat
  | _, [] => .error .part
  | .plain, c :: rest =>
      if c = 0 then .error .part
      else if c = quote then .ok 0
      else
        -- a backslash at the end of the text is one character like any other
        (jsmnParseString (if c = backslash ∧ rest ≠ [] then .escaped else .plain) rest).map (· + 1)
  | .escaped, c :: rest =>
      if c ∈ escapes then (jsmnParseString .plain rest).map (· + 1)
      else if c = 117 then (jsmnParseString (.digits 3) rest).map (· + 1)
      else .error .inval
  | .digits more, c :: rest =>
      if c = 0 then .error .part
      else if ¬ isHex c then .error .inval
      else
        (jsmnParseString (match more with
          | 0 => .plain
          | more + 1 => .digits more) rest).map (· + 1)

end Scanning

section Parsing

/-- The tokens so far with the newest at the front, and the text from `pos` on. -/
structure ParserState where
  newest : List JsmnTok
  pos : Nat
  rest : Bytes

abbrev ParserResult := Except JsmnError (List JsmnTok)

/-- One more token, where the array has room for it. -/
def jsmnAllocToken (numTokens : Nat) (tok : JsmnTok) (newest : List JsmnTok) :
    Except JsmnError (List JsmnTok) :=
  if numTokens ≤ newest.length then .error .nomem else .ok (tok :: newest)

/-- The end of the innermost object or array, which must be the right one. -/
def closeToken (type : JsmnType) (stop : Nat) : List JsmnTok → Except JsmnError (List JsmnTok)
  | [] => .error .inval
  | tok :: older =>
      if tok.stop = none then
        if tok.type = type then .ok ({ tok with stop := some stop } :: older) else .error .inval
      else (closeToken type stop older).map (tok :: ·)

/-- Goes on `length` characters later, unless there was an error. -/
def goOn (s : ParserState) (length : Nat) (newest : Except JsmnError (List JsmnTok)) :
    Turn ParserState ParserResult :=
  match newest with
  | .error err => .stop (.error err)
  | .ok newest => .more ⟨newest, s.pos + length, s.rest.drop length⟩

/-- At the end of the text every object and every array must be closed. -/
def parserEnd (newest : List JsmnTok) : ParserResult :=
  if newest.any fun tok => tok.stop = none then .error .part else .ok newest.reverse

/-- One turn of the loop. A primitive begins with any character that means nothing
else, so that it is never empty. -/
def parserTurn (numTokens : Nat) (s : ParserState) : Turn ParserState ParserResult :=
  match s.rest with
  | [] => .stop (parserEnd s.newest)
  | c :: rest =>
      if c = 0 then .stop (parserEnd s.newest)
      else if c = 123 then
        goOn s 1 (jsmnAllocToken numTokens ⟨.object, s.pos, none⟩ s.newest)
      else if c = 91 then
        goOn s 1 (jsmnAllocToken numTokens ⟨.array, s.pos, none⟩ s.newest)
      else if c = 125 then goOn s 1 (closeToken .object (s.pos + 1) s.newest)
      else if c = 93 then goOn s 1 (closeToken .array (s.pos + 1) s.newest)
      else if c = quote then
        match jsmnParseString .plain rest with
        | .error err => .stop (.error err)
        | .ok length =>
            goOn s (length + 2) (jsmnAllocToken numTokens
              ⟨.string, s.pos + 1, some (s.pos + 1 + length)⟩ s.newest)
      else if c ∈ whitespace ∨ c = 58 ∨ c = 44 then goOn s 1 (.ok s.newest)
      else
        match jsmnParsePrimitive s.rest with
        | none => .stop (.error .inval)
        | some length =>
            goOn s length (jsmnAllocToken numTokens
              ⟨.primitive, s.pos, some (s.pos + length)⟩ s.newest)

theorem goOn_shrinks {s next : ParserState} {length : Nat}
    {newest : Except JsmnError (List JsmnTok)} (hlength : 0 < length) (hrest : s.rest ≠ [])
    (h : goOn s length newest = .more next) : next.rest.length < s.rest.length := by
  unfold goOn at h
  split at h
  · cases h
  · cases h
    have hpos := List.length_pos_of_ne_nil hrest
    rw [List.length_drop]
    omega

theorem parserTurn_shrinks (numTokens : Nat) :
    Shrinks (parserTurn numTokens) fun s => s.rest.length := by
  intro s next h
  unfold parserTurn at h
  split at h
  · cases h
  · rename_i c rest hrest
    have hne : s.rest ≠ [] := by
      rw [hrest]
      exact List.cons_ne_nil c rest
    repeat' split at h
    any_goals first
      | exact goOn_shrinks (Nat.succ_pos _) hne h
      | cases h
    -- what is left is a primitive, and its first character ends none
    rename_i length hlength
    apply goOn_shrinks _ hne h
    have hends : ¬ (c = 0 ∨ c ∈ primitiveEnds) := by
      intro hend
      simp_all [primitiveEnds, whitespace, ascii]
    rw [hrest, jsmnParsePrimitive, if_neg hends] at hlength
    split at hlength
    · cases hlength
    · obtain ⟨n, -, rfl⟩ := Option.map_eq_some_iff.mp hlength
      exact Nat.succ_pos n

/-- The tokens of a text in the order in which they begin. -/
def jsmnParse (numTokens : Nat) (js : Bytes) : ParserResult :=
  loopTotal (parserTurn numTokens) (fun s => s.rest.length) (parserTurn_shrinks numTokens)
    ⟨[], 0, js⟩

end Parsing

/-- The text of a token. -/
def tokenText (js : Bytes) (tok : JsmnTok) : Bytes :=
  (js.drop tok.start).take (tok.stop.getD tok.start - tok.start)

example : (jsmnParse 100 (ascii "\x7b\"a\": [1, \"b\\u0063\"]\x7d")).toOption.map
    (List.map (tokenText (ascii "\x7b\"a\": [1, \"b\\u0063\"]\x7d"))) =
    some [ascii "\x7b\"a\": [1, \"b\\u0063\"]\x7d", ascii "a", ascii "[1, \"b\\u0063\"]",
      ascii "1", ascii "b\\u0063"] := by
  decide +kernel

end LibEst.Client.Jsmn
