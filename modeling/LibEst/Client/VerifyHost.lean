import LibEst.Client.HostNames
import LibEst.Client.Api

/-! The check that the certificate of the server belongs to the host that the client means
to talk to, and the rule that it is to follow. -/
namespace LibEst.Client.VerifyHost

open LibEst.Basic LibEst.Lib.ByteString LibEst.Server.AuthHeader
open LibEst.Client.Api LibEst.Client.HostNames

inductive GeneralName where
  | dns (data : Bytes)
  | ipAddress (data : Bytes)
  | other
  deriving DecidableEq

/-- A string of another type is given by its text in UTF-8, null where there is none. -/
inductive CommonName where
  | utf8 (data : Bytes)
  | converted (text : Option Bytes)
  deriving DecidableEq

/-- The alternative names, null without the extension, and the common names of the
subject in their order. -/
structure ServerCert where
  altNames : Option (List GeneralName)
  commonNames : List CommonName
  deriving DecidableEq

def ServerCert.entries (cert : ServerCert) : List GeneralName := cert.altNames.getD []

section Functions

/-- The variable of three states, and whether a comparison has left the parsed address. -/
structure Matching where
  matched : Option Bool
  outside : Bool
  deriving DecidableEq

/-- The length of a name is that of its string, as far as `strnlen_s` looks. -/
def lengthsAgree (data : Bytes) : Bool :=
  data.length = min (cString data).length estMaxServernameLen

def checkEntry (hostname : Bytes) (m : Matching) : GeneralName → Matching
  | .dns data =>
      { m with matched := some (lengthsAgree data && estClientCertHostcheck (cString data) hostname) }
  | .ipAddress data =>
      match hostAddress hostname with
      | none => { m with matched := some false }
      | some addr =>
          -- `memcmp_s` is given the length of the entry for both of them.
          { matched := some (data.length = addr.length && data = addr.take data.length),
            outside := m.outside || addr.length < data.length }
  | .other => m

/-- The loop over the names ends at the first that matches. -/
def checkNames (hostname : Bytes) : Matching → List GeneralName → Matching
  | m, [] => m
  | m, check :: rest =>
      if m.matched = some true then m else checkNames hostname (checkEntry hostname m check) rest

/-- Only the copy of a string in UTF-8 takes memory. -/
def peerCn (memory : Bool) : CommonName → Option Bytes
  | .utf8 data => if memory then some data else none
  | .converted text => text

def checkCommonName (hostname : Bytes) (memory : Bool) (commonNames : List CommonName) :
    EstError :=
  match commonNames.getLast?.bind (peerCn memory) with
  | none => .fqdnMismatch
  | some text =>
      if ¬ lengthsAgree text then .fqdnMismatch
      else if ¬ estClientCertHostcheck (cString text) hostname then .fqdnMismatch
      else .none

/-- The result, and whether a comparison has left the parsed address. -/
def estClientVerifyhost (hostname : Bytes) (cert : ServerCert) (memory : Bool) :
    EstError × Bool :=
  let m := checkNames hostname ⟨none, false⟩ cert.entries
  match m.matched with
  | some true => (.none, m.outside)
  | some false => (.fqdnMismatch, m.outside)
  | none => (checkCommonName hostname memory cert.commonNames, m.outside)

end Functions

section Rule

variable (hostname : Bytes)

/-- The stars in the left-most label. -/
def stars (name : Bytes) : Nat := (name.takeWhile (· ≠ dot)).count star

/-- A name without a zero is that of the host, or one with a single star that stands for
a part of its first label. -/
structure NameMatches (name : Bytes) : Prop where
  noZero : (0 : UInt8) ∉ name
  nonempty : name ≠ []
  names : SameText hostname name ∨ (stars name = 1 ∧ Wild hostname name)

def commonNameText : CommonName → Option Bytes
  | .utf8 data => some data
  | .converted text => text

/-- The rule: an address is an entry of its own type; a name is one of the DNS names, or
where there is none the last common name. -/
def Accepts (cert : ServerCert) : Prop :=
  match hostAddress hostname with
  | some addr => .ipAddress addr ∈ cert.entries
  | none =>
      (∃ name, .dns name ∈ cert.entries ∧ NameMatches hostname name) ∨
        (∀ name, .dns name ∉ cert.entries) ∧
          ∃ name, cert.commonNames.getLast?.bind commonNameText = some name ∧
            NameMatches hostname name

/-- The host is accepted by the rule, and nothing outside is read. -/
structure Identifies (cert : ServerCert) (memory : Bool) : Prop where
  verdict : (estClientVerifyhost hostname cert memory).1 = .none ↔ Accepts hostname cert
  inside : (estClientVerifyhost hostname cert memory).2 = false

end Rule

section Names

variable {hostname name : Bytes}

/-- A name that the code can take for that of a host. -/
structure Regular (name : Bytes) : Prop where
  noZero : (0 : UInt8) ∉ name
  nonempty : name ≠ []
  fits : name.length ≤ estMaxServernameLen

/-- A wildcard with more stars in its first label, which the host has there itself. -/
structure Starred (hostname name : Bytes) : Prop where
  regular : Regular name
  differs : ¬ SameText hostname name
  wild : Wild hostname name
  many : 1 < stars name

/-- What the code takes for a match. -/
def Taken (hostname name : Bytes) : Prop :=
  Regular name ∧
    (SameText hostname name ∨ (hostAddress hostname = none ∧ Wild hostname name))

theorem lengthsAgree_iff (data : Bytes) :
    lengthsAgree data = true ↔ (0 : UInt8) ∉ data ∧ data.length ≤ estMaxServernameLen := by
  unfold lengthsAgree
  rw [decide_eq_true_eq]
  have hle : (cString data).length ≤ data.length := (List.takeWhile_prefix _).length_le
  have hzero : (cString data).length = data.length ↔ (0 : UInt8) ∉ data := by
    constructor
    · intro hlength hmem
      have hsame : cString data = data := (List.takeWhile_prefix _).eq_of_length hlength
      rw [← hsame] at hmem
      have hc := List.mem_takeWhile_imp hmem
      simp at hc
    · exact fun h => congrArg List.length (cString_eq_self h)
  rw [← hzero]
  omega

theorem taken_iff (name : Bytes) :
    (lengthsAgree name && estClientCertHostcheck (cString name) hostname) = true ↔
      Taken hostname name := by
  rw [Bool.and_eq_true, lengthsAgree_iff, estClientCertHostcheck_iff]
  have hwildNe : Wild hostname name → hostname ≠ [] := by
    rintro ⟨pre, suf, tail, pre', mid, suf', tail', -, hhost, -⟩
    rw [hhost]
    simp
  have hsameNe (hne : name ≠ []) : SameText hostname name → hostname ≠ [] := by
    intro hsame hempty
    have hlength := hsame.length
    rw [hempty] at hlength
    exact hne (List.length_eq_zero_iff.mp hlength.symm)
  constructor
  · rintro ⟨⟨hzero, hfits⟩, hnonempty, -, hmatch⟩
    rw [cString_eq_self hzero] at hnonempty hmatch
    exact ⟨⟨hzero, hnonempty, hfits⟩, hmatch⟩
  · rintro ⟨hregular, hmatch⟩
    rw [cString_eq_self hregular.noZero]
    refine ⟨⟨hregular.noZero, hregular.fits⟩, hregular.nonempty, ?_, hmatch⟩
    exact hmatch.elim (hsameNe hregular.nonempty) fun h => hwildNe h.2

theorem stars_pos_of_wild (h : Wild hostname name) : 0 < stars name := by
  obtain ⟨pre, suf, tail, pre', mid, suf', tail', p, -⟩ := h
  unfold stars
  rw [p.parts.1]
  simp

/-- For a host that is no address, a name is taken where it matches and is not too long, or
where a second star happens to be there. -/
theorem taken_name_iff (haddress : hostAddress hostname = none) :
    Taken hostname name ↔
      (name.length ≤ estMaxServernameLen ∧ NameMatches hostname name) ∨ Starred hostname name := by
  unfold Taken
  constructor
  · rintro ⟨hregular, hmatch⟩
    by_cases hsame : SameText hostname name
    · exact Or.inl ⟨hregular.fits, hregular.noZero, hregular.nonempty, Or.inl hsame⟩
    · have hwild := (hmatch.resolve_left hsame).2
      by_cases hone : stars name = 1
      · exact Or.inl ⟨hregular.fits, hregular.noZero, hregular.nonempty, Or.inr ⟨hone, hwild⟩⟩
      · have hpos := stars_pos_of_wild hwild
        exact Or.inr ⟨hregular, hsame, hwild, by omega⟩
  · rintro (⟨hfits, hmatches⟩ | hstarred)
    · refine ⟨⟨hmatches.noZero, hmatches.nonempty, hfits⟩, ?_⟩
      exact hmatches.names.imp id fun h => ⟨haddress, h.2⟩
    · exact ⟨hstarred.regular, Or.inr ⟨haddress, hstarred.wild⟩⟩

end Names

section Entries

variable {hostname : Bytes}

def EntryMatches (hostname : Bytes) : GeneralName → Prop
  | .dns name => Taken hostname name
  | .ipAddress data => hostAddress hostname = some data
  | .other => False

/-- A comparison of the entry reads more than the address has. -/
def TooLong (hostname : Bytes) (entry : GeneralName) : Prop :=
  ∃ data addr, entry = .ipAddress data ∧ hostAddress hostname = some addr ∧
    addr.length < data.length

theorem checkEntry_matched (m : Matching) {entry : GeneralName} (h : entry ≠ .other) :
    ((checkEntry hostname m entry).matched = some true ↔ EntryMatches hostname entry) ∧
      (checkEntry hostname m entry).matched ≠ none := by
  cases entry with
  | other => exact absurd rfl h
  | dns name =>
    refine ⟨?_, by simp [checkEntry]⟩
    rw [EntryMatches, ← taken_iff]
    simp [checkEntry]
  | ipAddress data =>
    unfold checkEntry EntryMatches
    dsimp only
    cases hostAddress hostname with
    | none => simp
    | some addr =>
      refine ⟨?_, by simp⟩
      dsimp only
      rw [Option.some_inj, Option.some_inj, Bool.and_eq_true, decide_eq_true_eq,
        decide_eq_true_eq]
      constructor
      · rintro ⟨hlength, hsame⟩
        rw [hsame, hlength, List.take_length]
      · rintro rfl
        exact ⟨rfl, List.take_length.symm⟩

theorem checkEntry_outside (m : Matching) (entry : GeneralName) :
    (checkEntry hostname m entry).outside = true ↔ m.outside = true ∨ TooLong hostname entry := by
  unfold checkEntry TooLong
  cases entry with
  | dns name => simp
  | other => simp
  | ipAddress data =>
    dsimp only
    cases hostAddress hostname with
    | none => simp
    | some addr => simp

theorem checkEntry_goesOn {m : Matching} (hm : m.matched ≠ some true) {entry : GeneralName}
    (h : ¬ EntryMatches hostname entry) : (checkEntry hostname m entry).matched ≠ some true := by
  by_cases hother : entry = .other
  · subst hother
    exact hm
  · exact (checkEntry_matched m hother).1.not.mpr h

/-- An entry that matches ends the loop. -/
theorem checkNames_stop (m : Matching) {entry : GeneralName} (h : EntryMatches hostname entry)
    (rest : List GeneralName) :
    checkNames hostname (checkEntry hostname m entry) rest = checkEntry hostname m entry := by
  have hother : entry ≠ .other := by
    rintro rfl
    exact h
  cases rest with
  | nil => rfl
  | cons next rest => rw [checkNames, if_pos ((checkEntry_matched m hother).1.mpr h)]

/-- The loop finds a match just where some entry matches, and is left undecided where no
entry is a name or an address. -/
theorem checkNames_matched (entries : List GeneralName) {m : Matching}
    (hm : m.matched ≠ some true) :
    ((checkNames hostname m entries).matched = some true ↔
        ∃ entry ∈ entries, EntryMatches hostname entry) ∧
      ((checkNames hostname m entries).matched = none ↔
        m.matched = none ∧ ∀ entry ∈ entries, entry = .other) := by
  induction entries generalizing m with
  | nil => simp [checkNames, hm]
  | cons entry rest ih =>
    rw [checkNames, if_neg hm]
    simp only [List.mem_cons, exists_eq_or_imp, forall_eq_or_imp]
    by_cases hother : entry = .other
    · subst hother
      obtain ⟨hfound, hnone⟩ := @ih m hm
      simp [EntryMatches, checkEntry, hfound, hnone]
    · obtain ⟨hmatches, hsome⟩ := @checkEntry_matched hostname m entry hother
      by_cases hentry : EntryMatches hostname entry
      · rw [checkNames_stop m hentry, hmatches]
        simp [hentry, hother, hsome]
      · obtain ⟨hfound, hnone⟩ := ih (hmatches.not.mpr hentry)
        rw [hfound, hnone]
        simp [hentry, hother, hsome]

/-- It leaves the address where an entry that is too long comes before any match. -/
theorem checkNames_outside (entries : List GeneralName) {m : Matching}
    (hm : m.matched ≠ some true) :
    (checkNames hostname m entries).outside = true ↔ m.outside = true ∨
      ∃ before entry after, entries = before ++ entry :: after ∧ TooLong hostname entry ∧
        ∀ e ∈ before, ¬ EntryMatches hostname e := by
  induction entries generalizing m with
  | nil => simp [checkNames]
  | cons first rest ih =>
    have hsplit : (∃ before entry after, first :: rest = before ++ entry :: after ∧
          TooLong hostname entry ∧ ∀ e ∈ before, ¬ EntryMatches hostname e) ↔
        TooLong hostname first ∨ (¬ EntryMatches hostname first ∧
          ∃ before entry after, rest = before ++ entry :: after ∧ TooLong hostname entry ∧
            ∀ e ∈ before, ¬ EntryMatches hostname e) := by
      constructor
      · rintro ⟨before, entry, after, heq, hlong, hbefore⟩
        cases before with
        | nil =>
          cases heq
          exact Or.inl hlong
        | cons e before =>
          cases heq
          exact Or.inr ⟨hbefore first (by simp), before, entry, after, rfl, hlong,
            fun e he => hbefore e (by simp [he])⟩
      · rintro (hlong | ⟨hfirst, before, entry, after, rfl, hlong, hbefore⟩)
        · exact ⟨[], first, rest, rfl, hlong, by simp⟩
        · refine ⟨first :: before, entry, after, rfl, hlong, ?_⟩
          simpa using ⟨hfirst, hbefore⟩
    rw [checkNames, if_neg hm, hsplit]
    by_cases hentry : EntryMatches hostname first
    · rw [checkNames_stop m hentry, checkEntry_outside]
      simp [hentry]
    · rw [ih (checkEntry_goesOn hm hentry), checkEntry_outside]
      simp [hentry, or_assoc]

end Entries

section Condition

variable (hostname : Bytes) (cert : ServerCert) (memory : Bool)

/-- An entry that is longer than the address asked for comes behind one that matches. -/
def ReadsInside : Prop :=
  ∀ before entry after, cert.entries = before ++ entry :: after → TooLong hostname entry →
    ∃ e ∈ before, EntryMatches hostname e

/-- The literal of an address stands in a name that the code looks at. -/
def LiteralNamed : Prop :=
  (∃ name, .dns name ∈ cert.entries ∧ Regular name ∧ SameText hostname name) ∨
    (∀ entry ∈ cert.entries, entry = .other) ∧
      ∃ name, cert.commonNames.getLast?.bind (peerCn memory) = some name ∧ Regular name ∧
        SameText hostname name

/-- Among the DNS names, a match that is too long is made up for by another one, and so is
a match of a second star; without DNS names, the common name matches only where it is
looked at, and as the rule has it. -/
structure NamesAgree : Prop where
  dns : (∃ name, .dns name ∈ cert.entries) →
    (∃ name, .dns name ∈ cert.entries ∧ name.length ≤ estMaxServernameLen ∧
        NameMatches hostname name) ∨
      ((∃ name, .dns name ∈ cert.entries ∧ estMaxServernameLen < name.length ∧
          NameMatches hostname name) ↔
        ∃ name, .dns name ∈ cert.entries ∧ Starred hostname name)
  addresses : (∀ name, .dns name ∉ cert.entries) → (∃ data, .ipAddress data ∈ cert.entries) →
    ∀ name, cert.commonNames.getLast?.bind commonNameText = some name → ¬ NameMatches hostname name
  common : (∀ entry ∈ cert.entries, entry = .other) →
    (∀ name, cert.commonNames.getLast?.bind commonNameText = some name →
      NameMatches hostname name → name.length ≤ estMaxServernameLen ∧
        cert.commonNames.getLast?.bind (peerCn memory) = some name) ∧
      ∀ name, cert.commonNames.getLast?.bind (peerCn memory) = some name →
        ¬ Starred hostname name

def Agrees : Prop :=
  match hostAddress hostname with
  | some addr => .ipAddress addr ∈ cert.entries ∨ ¬ LiteralNamed hostname cert memory
  | none => NamesAgree hostname cert memory

variable {hostname cert memory}

theorem checkCommonName_iff (commonNames : List CommonName) :
    checkCommonName hostname memory commonNames = .none ↔
      ∃ name, commonNames.getLast?.bind (peerCn memory) = some name ∧ Taken hostname name := by
  unfold checkCommonName
  cases commonNames.getLast?.bind (peerCn memory) with
  | none => simp
  | some name =>
    have htaken := @taken_iff hostname name
    rw [Bool.and_eq_true] at htaken
    dsimp only
    simp only [Option.some_inj, exists_eq_left', ← htaken]
    by_cases hlength : lengthsAgree name = true
    · rw [if_neg (not_not.mpr hlength), and_iff_right hlength]
      by_cases hcheck : estClientCertHostcheck (cString name) hostname = true
      · rw [if_neg (not_not.mpr hcheck)]
        exact iff_of_true rfl hcheck
      · rw [if_pos hcheck]
        exact iff_of_false (by simp) hcheck
    · rw [if_pos hlength]
      exact iff_of_false (by simp) fun h => hlength h.1

/-- What the code accepts. -/
theorem verifyhost_none_iff :
    (estClientVerifyhost hostname cert memory).1 = .none ↔
      (∃ entry ∈ cert.entries, EntryMatches hostname entry) ∨
        (∀ entry ∈ cert.entries, entry = .other) ∧
          ∃ name, cert.commonNames.getLast?.bind (peerCn memory) = some name ∧
            Taken hostname name := by
  obtain ⟨hfound, hnone⟩ :=
    @checkNames_matched hostname cert.entries ⟨none, false⟩ (by simp)
  unfold estClientVerifyhost
  dsimp only
  rw [← hfound, ← checkCommonName_iff]
  cases hmatched : (checkNames hostname ⟨none, false⟩ cert.entries).matched with
  | none =>
    rw [hmatched] at hnone
    have hothers := (hnone.mp rfl).2
    simp only [reduceCtorEq, false_or]
    exact ⟨fun h => ⟨hothers, h⟩, fun h => h.2⟩
  | some matched =>
    have hsome : ¬ ∀ entry ∈ cert.entries, entry = .other := by
      intro hothers
      rw [hmatched] at hnone
      cases hnone.mpr ⟨rfl, hothers⟩
    cases matched with
    | true => simp
    | false => simp [hsome]

theorem verifyhost_inside_iff :
    (estClientVerifyhost hostname cert memory).2 = false ↔ ReadsInside hostname cert := by
  have hresult : (estClientVerifyhost hostname cert memory).2 =
      (checkNames hostname ⟨none, false⟩ cert.entries).outside := by
    unfold estClientVerifyhost
    dsimp only
    split <;> rfl
  have houtside := @checkNames_outside hostname cert.entries ⟨none, false⟩ (by simp)
  rw [hresult, ← Bool.not_eq_true, houtside]
  unfold ReadsInside
  simp only [Bool.false_eq_true, false_or, not_exists, not_and, not_forall, not_not,
    exists_prop]

theorem agrees_address {addr : Bytes} (haddress : hostAddress hostname = some addr) :
    ((estClientVerifyhost hostname cert memory).1 = .none ↔ Accepts hostname cert) ↔
      Agrees hostname cert memory := by
  have htaken (name : Bytes) : Taken hostname name ↔ Regular name ∧ SameText hostname name := by
    unfold Taken
    simp [haddress]
  have hentries : (∃ entry ∈ cert.entries, EntryMatches hostname entry) ↔
      (∃ name, .dns name ∈ cert.entries ∧ Regular name ∧ SameText hostname name) ∨
        .ipAddress addr ∈ cert.entries := by
    constructor
    · rintro ⟨entry, hmem, hmatches⟩
      cases entry with
      | dns name => exact Or.inl ⟨name, hmem, (htaken name).mp hmatches⟩
      | ipAddress data =>
        rw [EntryMatches, haddress] at hmatches
        cases hmatches
        exact Or.inr hmem
      | other => exact hmatches.elim
    · rintro (⟨name, hmem, hname⟩ | hmem)
      · exact ⟨_, hmem, (htaken name).mpr hname⟩
      · exact ⟨_, hmem, haddress⟩
  rw [verifyhost_none_iff, hentries]
  unfold Agrees Accepts LiteralNamed
  rw [haddress]
  simp only [htaken]
  generalize (∃ name, GeneralName.dns name ∈ cert.entries ∧ Regular name ∧
    SameText hostname name) = named
  generalize ((∀ entry ∈ cert.entries, entry = GeneralName.other) ∧ ∃ name,
    cert.commonNames.getLast?.bind (peerCn memory) = some name ∧ Regular name ∧
      SameText hostname name) = common
  tauto

theorem peerCn_text {cns : List CommonName} {name : Bytes}
    (h : cns.getLast?.bind (peerCn memory) = some name) :
    cns.getLast?.bind commonNameText = some name := by
  obtain ⟨cn, hcn, hname⟩ := Option.bind_eq_some_iff.mp h
  rw [hcn, Option.bind_some]
  cases cn with
  | converted text => exact hname
  | utf8 data =>
    cases memory with
    | true => exact hname
    | false => cases hname

/-- A wildcard with a second star is no match of the rule. -/
theorem not_nameMatches_of_starred {name : Bytes} (h : Starred hostname name) :
    ¬ NameMatches hostname name := by
  intro hmatches
  cases hmatches.names with
  | inl hsame => exact h.differs hsame
  | inr hwild =>
    have hmany := h.many
    omega

theorem agrees_common (haddress : hostAddress hostname = none) :
    ((∃ name, cert.commonNames.getLast?.bind (peerCn memory) = some name ∧ Taken hostname name) ↔
        ∃ name, cert.commonNames.getLast?.bind commonNameText = some name ∧
          NameMatches hostname name) ↔
      (∀ name, cert.commonNames.getLast?.bind commonNameText = some name →
        NameMatches hostname name → name.length ≤ estMaxServernameLen ∧
          cert.commonNames.getLast?.bind (peerCn memory) = some name) ∧
      ∀ name, cert.commonNames.getLast?.bind (peerCn memory) = some name →
        ¬ Starred hostname name := by
  constructor
  · intro h
    constructor
    · intro name htext hmatches
      obtain ⟨name', hpeer, htaken⟩ := h.mpr ⟨name, htext, hmatches⟩
      have hsame := peerCn_text hpeer
      rw [htext] at hsame
      cases hsame
      exact ⟨htaken.1.fits, hpeer⟩
    · intro name hpeer hstarred
      obtain ⟨name', htext, hmatches⟩ :=
        h.mp ⟨name, hpeer, (taken_name_iff haddress).mpr (Or.inr hstarred)⟩
      rw [peerCn_text hpeer] at htext
      cases htext
      exact not_nameMatches_of_starred hstarred hmatches
  · intro h
    obtain ⟨hmatch, hstar⟩ := h
    constructor
    · rintro ⟨name, hpeer, htaken⟩
      cases (taken_name_iff haddress).mp htaken with
      | inl hmatches => exact ⟨name, peerCn_text hpeer, hmatches.2⟩
      | inr hstarred => exact absurd hstarred (hstar name hpeer)
    · rintro ⟨name, htext, hmatches⟩
      obtain ⟨hfits, hpeer⟩ := hmatch name htext hmatches
      exact ⟨name, hpeer, (taken_name_iff haddress).mpr (Or.inl ⟨hfits, hmatches⟩)⟩

theorem agrees_dns (haddress : hostAddress hostname = none) :
    ((∃ name, .dns name ∈ cert.entries ∧ Taken hostname name) ↔
        ∃ name, .dns name ∈ cert.entries ∧ NameMatches hostname name) ↔
      (∃ name, .dns name ∈ cert.entries ∧ name.length ≤ estMaxServernameLen ∧
          NameMatches hostname name) ∨
        ((∃ name, .dns name ∈ cert.entries ∧ estMaxServernameLen < name.length ∧
            NameMatches hostname name) ↔
          ∃ name, .dns name ∈ cert.entries ∧ Starred hostname name) := by
  have htaken : (∃ name, .dns name ∈ cert.entries ∧ Taken hostname name) ↔
      (∃ name, .dns name ∈ cert.entries ∧ name.length ≤ estMaxServernameLen ∧
        NameMatches hostname name) ∨ ∃ name, .dns name ∈ cert.entries ∧ Starred hostname name := by
    simp only [taken_name_iff haddress, and_or_left, exists_or]
  have hmatches : (∃ name, .dns name ∈ cert.entries ∧ NameMatches hostname name) ↔
      (∃ name, .dns name ∈ cert.entries ∧ name.length ≤ estMaxServernameLen ∧
        NameMatches hostname name) ∨ ∃ name, .dns name ∈ cert.entries ∧
          estMaxServernameLen < name.length ∧ NameMatches hostname name := by
    rw [← exists_or]
    apply exists_congr
    intro name
    have hlength : name.length ≤ estMaxServernameLen ∨ estMaxServernameLen < name.length := by
      omega
    rw [← and_or_left, ← or_and_right, and_iff_right hlength]
  rw [htaken, hmatches]
  generalize (∃ name, GeneralName.dns name ∈ cert.entries ∧ name.length ≤ estMaxServernameLen ∧
    NameMatches hostname name) = fitting
  generalize (∃ name, GeneralName.dns name ∈ cert.entries ∧ estMaxServernameLen < name.length ∧
    NameMatches hostname name) = long
  generalize (∃ name, GeneralName.dns name ∈ cert.entries ∧ Starred hostname name) = starred
  tauto

theorem agrees_name (haddress : hostAddress hostname = none) :
    ((estClientVerifyhost hostname cert memory).1 = .none ↔ Accepts hostname cert) ↔
      Agrees hostname cert memory := by
  have hentries : (∃ entry ∈ cert.entries, EntryMatches hostname entry) ↔
      ∃ name, .dns name ∈ cert.entries ∧ Taken hostname name := by
    constructor
    · rintro ⟨entry, hmem, hmatches⟩
      cases entry with
      | dns name => exact ⟨name, hmem, hmatches⟩
      | ipAddress data =>
        rw [EntryMatches, haddress] at hmatches
        cases hmatches
      | other => exact hmatches.elim
    · rintro ⟨name, hmem, htaken⟩
      exact ⟨_, hmem, htaken⟩
  have haccepts : Accepts hostname cert ↔
      (∃ name, .dns name ∈ cert.entries ∧ NameMatches hostname name) ∨
        (∀ name, .dns name ∉ cert.entries) ∧
          ∃ name, cert.commonNames.getLast?.bind commonNameText = some name ∧
            NameMatches hostname name := by
    unfold Accepts
    rw [haddress]
  have hagrees : Agrees hostname cert memory ↔ NamesAgree hostname cert memory := by
    unfold Agrees
    rw [haddress]
  rw [verifyhost_none_iff, hentries, haccepts, hagrees]
  by_cases hdns : ∃ name, .dns name ∈ cert.entries
  · obtain ⟨d, hd⟩ := id hdns
    have hothers : ¬ ∀ entry ∈ cert.entries, entry = .other := fun h => by cases h _ hd
    have hsome : ¬ ∀ name, .dns name ∉ cert.entries := fun h => h d hd
    simp only [hothers, hsome, false_and, or_false]
    rw [agrees_dns haddress]
    exact ⟨fun h => ⟨fun _ => h, fun hnone => absurd hnone hsome, fun h => absurd h hothers⟩,
      fun h => h.dns hdns⟩
  · have hnone : ∀ name, .dns name ∉ cert.entries := fun name hname => hdns ⟨name, hname⟩
    have hnoneDns (p : Bytes → Prop) : ¬ ∃ name, .dns name ∈ cert.entries ∧ p name :=
      fun h => h.elim fun name hname => hnone name hname.1
    rw [or_iff_right (hnoneDns _), or_iff_right (hnoneDns _), and_iff_right hnone]
    by_cases haddresses : ∃ data, .ipAddress data ∈ cert.entries
    · obtain ⟨a, ha⟩ := id haddresses
      have hothers : ¬ ∀ entry ∈ cert.entries, entry = .other := fun h => by cases h _ ha
      simp only [hothers, false_and, false_iff, not_exists, not_and]
      exact ⟨fun h => ⟨fun h => absurd h hdns, fun _ _ => h, fun h => absurd h hothers⟩,
        fun h => h.addresses hnone haddresses⟩
    · have hothers : ∀ entry ∈ cert.entries, entry = .other := by
        intro entry hentry
        cases entry with
        | dns name => exact absurd hentry (hnone name)
        | ipAddress data => exact absurd ⟨data, hentry⟩ haddresses
        | other => rfl
      rw [and_iff_right hothers, agrees_common haddress]
      exact ⟨fun h => ⟨fun h => absurd h hdns, fun _ h => absurd h haddresses, fun _ => h⟩,
        fun h => h.common hothers⟩

/-- The host is identified as the rule has it just where its names agree, and nothing
outside is read just where no entry that is too long is reached. -/
theorem verify_host_identifies_iff (hostname : Bytes) (cert : ServerCert) (memory : Bool) :
    Identifies hostname cert memory ↔
      Agrees hostname cert memory ∧ ReadsInside hostname cert := by
  have hverdict : ((estClientVerifyhost hostname cert memory).1 = .none ↔ Accepts hostname cert) ↔
      Agrees hostname cert memory := by
    cases haddress : hostAddress hostname with
    | none => exact agrees_name haddress
    | some addr => exact agrees_address haddress
  rw [← hverdict, ← @verifyhost_inside_iff hostname cert memory]
  exact ⟨fun h => ⟨h.verdict, h.inside⟩, fun h => ⟨h.1, h.2⟩⟩

/-- An address as text, among the names. -/
def literalCert : ServerCert where
  altNames := some [.dns (ascii "10.0.0.1")]
  commonNames := []

/-- A host given by its address is accepted for a DNS name of the same text. -/
theorem verify_host_takes_literal :
    (estClientVerifyhost (ascii "10.0.0.1") literalCert true).1 = .none ∧
      ¬ Identifies (ascii "10.0.0.1") literalCert true := by
  have haccepts : (estClientVerifyhost (ascii "10.0.0.1") literalCert true).1 = .none := by
    decide +kernel
  refine ⟨haccepts, ?_⟩
  intro h
  have haddress : hostAddress (ascii "10.0.0.1") = some [10, 0, 0, 1] := by decide +kernel
  have hrule := h.verdict.mp haccepts
  unfold Accepts at hrule
  rw [haddress] at hrule
  exact absurd hrule (by decide +kernel)

end Condition

end LibEst.Client.VerifyHost
