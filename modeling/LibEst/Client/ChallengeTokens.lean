import LibEst.Client.FieldScan

/-! The tokens of a challenge: the loop over the memory of the header, and the same
reading field by field, where a name takes the next field for its value whatever
stands between them. -/
namespace LibEst.Client.ChallengeTokens

open LibEst.Lib.ByteString LibEst.Lib.Loop LibEst.Server.AuthHeader
open LibEst.Client.Context LibEst.Client.Http LibEst.Client.FieldScan

section Memory

/-- What a token is compared with. -/
inductive Name where
  | realm
  | nonce
  | qop
  | algorithm
  | error
  | errorDescription
  deriving DecidableEq

/-- The comparisons in their order; an empty token is equal to the first name. -/
def nameOf (token : Bytes) : Option Name :=
  if strcaseEq token "realm" then some .realm
  else if strcaseEq token "nonce" then some .nonce
  else if strcaseEq token "qop" then some .qop
  else if strcaseEq token "algorithm" then some .algorithm
  else if strcaseEq token "error" then some .error
  else if strcaseEq token "error_description" then some .errorDescription
  else none

/-- The value of `qop` is compared over the length of "auth" and its zero, whatever its
own length is. -/
def readsBehind (name : Name) (value : Field) : Bool :=
  name = .qop ∧ value.text ≠ [] ∧ value.room < (ascii "auth").length + 1

def refuses (name : Name) (value : Field) : Bool :=
  name = .algorithm ∧ ¬ strcaseEq value.text "md5"

/-- The values that are kept. The buffers have one byte more than is ever copied. -/
def store (ctx : ClientCtx) (name : Name) (value : Bytes) : ClientCtx :=
  match name with
  | .realm => { ctx with realm := value.take maxRealm }
  | .nonce => { ctx with sNonce := value.take maxNonce }
  | _ => ctx

/-- The variables of the loop, and the tokens so far that were equal to a name. -/
structure Reading where
  ctx : ClientCtx
  names : List Field
  mem : Memory

/-- The result with the tokens that were equal to a name, null for a read outside of
the memory. -/
abbrev TokenRun := Option (TokenResult × List Field)

def invalid (ctx : ClientCtx) (names : List Field) : TokenRun :=
  some ((false, { ctx with sNonce := [] }), names)

def tokenTurnIn (s : Reading) : Turn Reading TokenRun :=
  match htNextFieldIn s.mem with
  | none => .stop none
  | some (none, _) => .stop (some ((true, s.ctx), s.names))
  | some (some token, rest) =>
      match nameOf token.text with
      | none => .more { s with mem := rest }
      | some name =>
          let names := s.names ++ [token]
          match htNextFieldIn rest with
          | none => .stop none
          | some (none, last) =>
              if name = .algorithm then .more ⟨s.ctx, names, last⟩ else .stop (invalid s.ctx names)
          | some (some value, last) =>
              if readsBehind name value then .stop none
              else if refuses name value then .stop (invalid s.ctx names)
              else .more ⟨store s.ctx name value.text, names, last⟩

theorem tokenTurnIn_shrinks : Shrinks tokenTurnIn fun s => s.mem.length := by
  intro s next h
  unfold tokenTurnIn at h
  split at h
  · cases h
  · cases h
  · rename_i token rest htoken
    have hrest := (htNextFieldIn_length htoken).2 nofun
    split at h
    · cases h
      exact hrest
    · dsimp only at h
      split at h
      · cases h
      · rename_i last hvalue
        have hlast := (htNextFieldIn_length hvalue).1
        split at h
        · cases h
          exact Nat.lt_of_le_of_lt hlast hrest
        · cases h
      · rename_i value last hvalue
        have hlast := (htNextFieldIn_length hvalue).1
        split at h
        · cases h
        · split at h
          · cases h
          · cases h
            exact Nat.lt_of_le_of_lt hlast hrest

/-- The run over the memory of a header value. -/
def estIoParseAuthTokensIn (ctx : ClientCtx) (value : Bytes) : TokenRun :=
  match htNextFieldIn (value ++ [0]) with
  | none => none
  | some (_, rest) =>
      loopTotal tokenTurnIn (fun s => s.mem.length) tokenTurnIn_shrinks ⟨ctx, [], rest⟩

end Memory

section Fields

inductive Finish where
  | complete
  | refused
  | outside
  deriving DecidableEq

/-- What the fields of a text come to by their positions: those that are equal to a
name, the last values behind `realm` and `nonce`, and how the reading ends. -/
structure Pairing where
  names : List Field
  realm : Option Bytes
  nonce : Option Bytes
  finish : Finish
  deriving DecidableEq

/-- A pair in front of the others; what comes later is stored over it. -/
def Pairing.behind (later : Pairing) (token : Field) (name : Name) (value : Bytes) : Pairing where
  names := token :: later.names
  realm := later.realm.or (if name = .realm then some value else none)
  nonce := later.nonce.or (if name = .nonce then some value else none)
  finish := later.finish

def endOfFields (opened : Bool) : Finish := if opened then .outside else .complete

def pairing (opened : Bool) : List Item → Pairing
  | [] => ⟨[], none, none, endOfFields opened⟩
  | [token] =>
      match nameOf token.text with
      | none => ⟨[], none, none, endOfFields opened⟩
      | some name =>
          ⟨[token.toField], none, none,
            if opened then .outside else if name = .algorithm then .complete else .refused⟩
  | token :: value :: rest =>
      match nameOf token.text with
      | none => pairing opened (value :: rest)
      | some name =>
          if readsBehind name value.toField then ⟨[token.toField], none, none, .outside⟩
          else if refuses name value.toField then ⟨[token.toField], none, none, .refused⟩
          else (pairing opened rest).behind token.toField name value.text

def Pairing.stored (p : Pairing) (ctx : ClientCtx) : ClientCtx :=
  { ctx with
    realm := (p.realm.map (·.take maxRealm)).getD ctx.realm
    sNonce := (p.nonce.map (·.take maxNonce)).getD ctx.sNonce }

def Pairing.run (p : Pairing) (ctx : ClientCtx) (names : List Field) : TokenRun :=
  match p.finish with
  | .complete => some ((true, p.stored ctx), names ++ p.names)
  | .refused => invalid (p.stored ctx) (names ++ p.names)
  | .outside => none

/-- The fields behind the name of the scheme, read by position. -/
def challenge (value : Bytes) : Pairing :=
  let (items, opened) := fields value
  pairing opened items.tail

end Fields

section Agreement

variable {text : Bytes}

theorem pairing_skip (opened : Bool) {token : Item} (h : nameOf token.text = none)
    (rest : List Item) : pairing opened (token :: rest) = pairing opened rest := by
  cases rest with
  | nil => simp only [pairing, h]
  | cons value rest => simp only [pairing, h]

theorem stored_behind (later : Pairing) (token : Field) (name : Name) (value : Bytes)
    (ctx : ClientCtx) :
    (later.behind token name value).stored ctx = later.stored (store ctx name value) := by
  unfold Pairing.behind Pairing.stored store
  cases name <;> cases later.realm <;> cases later.nonce <;> rfl

theorem run_behind (later : Pairing) (token : Field) (name : Name) (value : Bytes)
    (ctx : ClientCtx) (names : List Field) :
    (later.behind token name value).run ctx names =
      later.run (store ctx name value) (names ++ [token]) := by
  have hnames : names ++ (later.behind token name value).names =
      names ++ [token] ++ later.names := by
    rw [List.append_assoc]
    rfl
  rw [Pairing.run, Pairing.run, stored_behind, hnames]
  rfl

theorem htNextFieldIn_nothing : htNextFieldIn [0] = some (none, [0]) := by
  exact @htNextFieldIn_text [] List.not_mem_nil []

theorem tokens_nothing (ctx : ClientCtx) (names : List Field) :
    loopTotal tokenTurnIn (fun s => s.mem.length) tokenTurnIn_shrinks ⟨ctx, names, [0]⟩ =
      some ((true, ctx), names) := by
  apply loopTotal_stop
  rw [tokenTurnIn, htNextFieldIn_nothing]

theorem run_of_finish (names taken : List Field) (ctx : ClientCtx) (finish : Finish) :
    Pairing.run ⟨taken, none, none, finish⟩ ctx names =
      match finish with
      | .complete => some ((true, ctx), names ++ taken)
      | .refused => invalid ctx (names ++ taken)
      | .outside => none := by
  cases finish <;> rfl

/-- The loop over the memory is the reading by position. -/
theorem tokenTurnIn_fields (hzero : (0 : UInt8) ∉ text) (before : Bytes) {n : Nat}
    (hn : text.length < n) (ctx : ClientCtx) (names : List Field) :
    loopTotal tokenTurnIn (fun s => s.mem.length) tokenTurnIn_shrinks ⟨ctx, names, text ++ [0]⟩ =
      (pairing (lexAll n (before, text)).2 (lexAll n (before, text)).1).run ctx names := by
  induction h : text.length using Nat.strongRecOn generalizing text before n ctx names with
  | ind k ih =>
    have hfirst := htNextFieldIn_text hzero before
    cases n with
    | zero => omega
    | succ n =>
      rw [lexAll]
      cases hlex : lex (before, text) with
      | ended =>
        rw [hlex] at hfirst
        have hturn : tokenTurnIn ⟨ctx, names, text ++ [0]⟩ = .stop (some ((true, ctx), names)) := by
          simp only [tokenTurnIn, hfirst, Lexed.scan]
        rw [loopTotal_stop _ hturn, pairing, run_of_finish]
        simp [endOfFields]
      | opened =>
        rw [hlex] at hfirst
        have hturn : tokenTurnIn ⟨ctx, names, text ++ [0]⟩ = .stop none := by
          simp only [tokenTurnIn, hfirst, Lexed.scan]
        rw [loopTotal_stop _ hturn, pairing, run_of_finish]
        rfl
      | item token behind =>
        rw [hlex] at hfirst
        obtain ⟨hshort, hbehind⟩ := lex_behind hzero hlex
        dsimp only
        cases hname : nameOf token.text with
        | none =>
          have hturn : tokenTurnIn ⟨ctx, names, text ++ [0]⟩ =
              .more ⟨ctx, names, behind.2 ++ [0]⟩ := by
            simp only [tokenTurnIn, hfirst, Lexed.scan, hname]
          rw [loopTotal_more _ hturn, pairing_skip _ hname]
          exact ih _ (h ▸ hshort) hbehind behind.1 (by omega) ctx names rfl
        | some name =>
          have hsecond := htNextFieldIn_text hbehind behind.1
          cases n with
          | zero => omega
          | succ n =>
            rw [lexAll]
            cases hlex2 : lex behind with
            | ended =>
              rw [hlex2] at hsecond
              by_cases halgorithm : name = .algorithm
              · have hturn : tokenTurnIn ⟨ctx, names, text ++ [0]⟩ =
                    .more ⟨ctx, names ++ [token.toField], [0]⟩ := by
                  simp only [tokenTurnIn, hfirst, Lexed.scan, hname, hsecond, if_pos halgorithm]
                rw [loopTotal_more _ hturn, tokens_nothing]
                simp only [pairing, hname, if_pos halgorithm, Bool.false_eq_true, if_false,
                  run_of_finish]
              · have hturn : tokenTurnIn ⟨ctx, names, text ++ [0]⟩ =
                    .stop (invalid ctx (names ++ [token.toField])) := by
                  simp only [tokenTurnIn, hfirst, Lexed.scan, hname, hsecond, if_neg halgorithm]
                rw [loopTotal_stop _ hturn]
                simp only [pairing, hname, if_neg halgorithm, Bool.false_eq_true, if_false,
                  run_of_finish]
            | opened =>
              rw [hlex2] at hsecond
              have hturn : tokenTurnIn ⟨ctx, names, text ++ [0]⟩ = .stop none := by
                simp only [tokenTurnIn, hfirst, Lexed.scan, hname, hsecond]
              rw [loopTotal_stop _ hturn]
              simp only [pairing, hname, if_true, run_of_finish]
            | item value behind2 =>
              rw [hlex2] at hsecond
              obtain ⟨hshort2, hbehind2⟩ := lex_behind hbehind hlex2
              dsimp only
              by_cases hreads : readsBehind name value.toField = true
              · have hturn : tokenTurnIn ⟨ctx, names, text ++ [0]⟩ = .stop none := by
                  simp only [tokenTurnIn, hfirst, Lexed.scan, hname, hsecond, if_pos hreads]
                rw [loopTotal_stop _ hturn]
                simp only [pairing, hname, if_pos hreads, run_of_finish]
              · by_cases hrefuses : refuses name value.toField = true
                · have hturn : tokenTurnIn ⟨ctx, names, text ++ [0]⟩ =
                      .stop (invalid ctx (names ++ [token.toField])) := by
                    simp only [tokenTurnIn, hfirst, Lexed.scan, hname, hsecond, if_neg hreads,
                      if_pos hrefuses]
                  rw [loopTotal_stop _ hturn]
                  simp only [pairing, hname, if_neg hreads, if_pos hrefuses, run_of_finish]
                · have hturn : tokenTurnIn ⟨ctx, names, text ++ [0]⟩ = .more
                      ⟨store ctx name value.text, names ++ [token.toField], behind2.2 ++ [0]⟩ := by
                    simp only [tokenTurnIn, hfirst, Lexed.scan, hname, hsecond, if_neg hreads,
                      if_neg hrefuses]
                  rw [loopTotal_more _ hturn]
                  simp only [pairing, hname, if_neg hreads, if_neg hrefuses]
                  rw [run_behind]
                  exact ih _ (by omega) hbehind2 behind2.1 (by omega) _ _ rfl

/-- The run over the memory of a string is the reading of its fields. -/
theorem estIoParseAuthTokensIn_fields (hzero : (0 : UInt8) ∉ text) (ctx : ClientCtx) :
    estIoParseAuthTokensIn ctx text = (challenge text).run ctx [] := by
  have hfirst := htNextFieldIn_text hzero []
  unfold estIoParseAuthTokensIn challenge fields
  rw [lexAll]
  cases hlex : lex ([], text) with
  | ended =>
    rw [hlex] at hfirst
    rw [hfirst]
    exact tokens_nothing ctx []
  | opened =>
    rw [hlex] at hfirst
    rw [hfirst]
    rfl
  | item scheme behind =>
    rw [hlex] at hfirst
    obtain ⟨hshort, hbehind⟩ := lex_behind hzero hlex
    rw [hfirst]
    exact tokenTurnIn_fields hbehind behind.1 hshort ctx []

end Agreement

section Text

variable {text : Bytes}

/-- The turn over the text, by the name that the token is equal to. -/
theorem tokenTurn_name (ctx : ClientCtx) (text : Bytes) :
    tokenTurn (ctx, text) =
      match htNextField text with
      | none => .stop (true, ctx)
      | some (token, rest) =>
          match nameOf token with
          | none => .more (ctx, rest)
          | some name =>
              match htNextField rest with
              | none => if name = .algorithm then .more (ctx, []) else invalidToken ctx
              | some (value, last) =>
                  if name = .algorithm ∧ ¬ strcaseEq value "md5" then invalidToken ctx
                  else .more (store ctx name value, last) := by
  unfold tokenTurn
  dsimp only
  cases htNextField text with
  | none => rfl
  | some field =>
    dsimp only
    unfold nameOf withValue
    cases htNextField field.2 with
    | none => split_ifs <;> rfl
    | some value =>
      dsimp only
      split_ifs <;> simp_all [store]

/-- A turn over the memory goes on or stops as the turn over the text does, unless it
leaves the memory. -/
def Within : Turn Reading TokenRun → Turn TokenState TokenResult → Prop
  | .more next, turn =>
      ∃ rest, next.mem = rest ++ [0] ∧ (0 : UInt8) ∉ rest ∧ turn = .more (next.ctx, rest)
  | .stop none, _ => True
  | .stop (some (result, _)), turn => turn = .stop result

theorem tokenTurnIn_text (hzero : (0 : UInt8) ∉ text) (ctx : ClientCtx) (names : List Field) :
    Within (tokenTurnIn ⟨ctx, names, text ++ [0]⟩) (tokenTurn (ctx, text)) := by
  rw [tokenTurn_name, tokenTurnIn, htNextFieldIn_text hzero [], htNextField_lex hzero []]
  cases hlex : lex ([], text) with
  | ended => rfl
  | opened => trivial
  | item token behind =>
    have hbehind := (lex_behind hzero hlex).2
    dsimp only [Lexed.scan, Lexed.front]
    cases hname : nameOf token.text with
    | none => exact ⟨behind.2, rfl, hbehind, rfl⟩
    | some name =>
      dsimp only
      rw [htNextFieldIn_text hbehind behind.1, htNextField_lex hbehind behind.1]
      cases hlex2 : lex (behind.1, behind.2) with
      | ended =>
        dsimp only [Lexed.scan, Lexed.front]
        by_cases halgorithm : name = .algorithm
        · rw [if_pos halgorithm, if_pos halgorithm]
          exact ⟨[], rfl, List.not_mem_nil, rfl⟩
        · rw [if_neg halgorithm, if_neg halgorithm]
          rfl
      | opened => trivial
      | item value behind2 =>
        have hbehind2 := (lex_behind hbehind hlex2).2
        dsimp only [Lexed.scan, Lexed.front]
        by_cases hreads : readsBehind name value.toField = true
        · rw [if_pos hreads]
          trivial
        · rw [if_neg hreads]
          by_cases hrefuses : refuses name value.toField = true
          · have hmd5 : name = .algorithm ∧ ¬ strcaseEq value.text "md5" := by
              simpa [refuses] using hrefuses
            rw [if_pos hrefuses, if_pos hmd5]
            rfl
          · have hmd5 : ¬ (name = .algorithm ∧ ¬ strcaseEq value.text "md5") := by
              simpa [refuses] using hrefuses
            rw [if_neg hrefuses, if_neg hmd5]
            exact ⟨behind2.2, rfl, hbehind2, rfl⟩

/-- What a run inside of the memory comes to is the result over the text. -/
theorem estIoParseAuthTokensIn_text (hzero : (0 : UInt8) ∉ text) {ctx : ClientCtx}
    {result : TokenResult} {names : List Field}
    (h : estIoParseAuthTokensIn ctx text = some (result, names)) :
    estIoParseAuthTokens ctx text = result := by
  unfold estIoParseAuthTokensIn at h
  unfold estIoParseAuthTokens
  rw [htNextFieldIn_text hzero []] at h
  rw [htNextField_lex hzero []]
  cases hlex : lex ([], text) with
  | ended =>
    rw [hlex] at h
    have hrun := h.symm.trans (tokens_nothing ctx [])
    cases hrun
    rfl
  | opened =>
    rw [hlex] at h
    cases h
  | item scheme behind =>
    rw [hlex] at h
    let settled := loopTotal tokenTurn (fun s => s.2.length) tokenTurn_shrinks (ctx, behind.2)
    let together (s : Reading) : Prop := ∃ rest, s.mem = rest ++ [0] ∧ (0 : UInt8) ∉ rest ∧
      loopTotal tokenTurn (fun s => s.2.length) tokenTurn_shrinks (s.ctx, rest) = settled
    let same (run : TokenRun) : Prop := ∀ result names, run = some (result, names) →
      settled = result
    have hmore (s next : Reading) (hs : together s) (hnext : tokenTurnIn s = .more next) :
        together next := by
      obtain ⟨ctx, names, mem⟩ := s
      obtain ⟨rest, rfl, hrest, hsettled⟩ := hs
      have hturn := tokenTurnIn_text hrest ctx names
      rw [hnext] at hturn
      obtain ⟨last, hmem, hlast, hturn⟩ := hturn
      exact ⟨last, hmem, hlast, (loopTotal_more _ hturn).symm.trans hsettled⟩
    have hstop (s : Reading) (run : TokenRun) (hs : together s) (hrun : tokenTurnIn s = .stop run) :
        same run := by
      intro result taken hsome
      obtain ⟨ctx, names, mem⟩ := s
      obtain ⟨rest, rfl, hrest, hsettled⟩ := hs
      have hturn := tokenTurnIn_text hrest ctx names
      rw [hrun, hsome] at hturn
      exact hsettled.symm.trans (loopTotal_stop _ hturn)
    exact loopTotal_rule tokenTurnIn_shrinks hmore hstop
      ⟨behind.2, rfl, (lex_behind hzero hlex).2, rfl⟩ result names h

end Text

end LibEst.Client.ChallengeTokens
