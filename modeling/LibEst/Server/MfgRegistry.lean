import LibEst.Lib.Machine
import LibEst.SafeStr
import LibEst.Server.Context

/-! The settings of enhanced certificate authentication and the list of manufacturers, as
the calls of an application change them. -/
namespace LibEst.Server.MfgRegistry

open LibEst.Basic LibEst.OpenSsl LibEst.Lib.ByteString LibEst.Lib.Machine LibEst.SafeStr
open LibEst.Server.AuthHeader LibEst.Server.Context

section Model

def mfgNameMaxLen : Nat := 255

def ecaCsrCheckOff : Int := 0
def ecaCsrCheckOn : Int := 1

/-- A slot of the list with its name buffer. -/
structure MfgSlot where
  name : Bytes
  nid : Int
  truststore : Option X509Store
  storeCtx : Bool
  deriving DecidableEq

def blankSlot : MfgSlot where
  name := []
  nid := 0
  truststore := none
  storeCtx := false

/-- The fields of a context that belong to enhanced certificate authentication. -/
structure EcaSettings where
  enhancedCertAuthEnabled : Bool
  enhancedCertAuthCsrCheck : Int
  enhcdCertLocalPkiNid : Int
  enhcdCertAuthPwd : Bytes
  enchdCertMfgsInfoList : Option (Vector MfgSlot numSupportedMfg)
  deriving DecidableEq

/-- `ossl_init_cert_store_from_raw` on a new store: the store with what it took from a text
of some length, and how many certificates these are. -/
abbrev FillStore := Bytes → Int → X509Store × Nat

/-- Which of the allocations succeed: of the list, of a store, and of its context. -/
structure AddAnswers where
  listNew : Bool
  storeNew : Bool
  storeCtxNew : Bool
  deriving DecidableEq

variable (F : FillStore)

def osslInitCertStore (raw : Bytes) (size : Int) : EstError × X509Store :=
  (if (F raw size).2 = 0 then .noCertsFound else .none, (F raw size).1)

/-- Null for the index -1 of a full list. -/
def nextMfgInfoInd (slots : Vector MfgSlot numSupportedMfg) : Option (Fin numSupportedMfg) :=
  (List.finRange numSupportedMfg).find? fun i => slots[i].truststore = none

def estLoadEnhcdCertAuthManufacturer (a : AddAnswers) (slots : Vector MfgSlot numSupportedMfg)
    (mfgName : Bytes) (subjectFieldNid : Int) (certs : Bytes) (certsLen : Int) :
    EstError × Vector MfgSlot numSupportedMfg :=
  match nextMfgInfoInd slots with
  | none => (.none, slots)
  | some i =>
      match strncpyS (mfgNameMaxLen + 1) mfgNameMaxLen (cString mfgName) with
      | none => (.unknown, slots.set i { slots[i] with name := [] })
      | some name =>
          let slot := { slots[i] with name := name, nid := subjectFieldNid, truststore := none }
          if !a.storeNew then (.malloc, slots.set i slot)
          else
            let (rv, store) := osslInitCertStore F certs certsLen
            if rv ≠ .none then (rv, slots.set i slot)
            else if !a.storeCtxNew then (.malloc, slots.set i { slot with storeCtx := false })
            else (.none, slots.set i { slot with truststore := some store, storeCtx := true })

def estServerEnableEnhancedCertAuth (ctx : Option EcaSettings) (localPkiSubjFieldNid : Int)
    (ahPwd : Option Bytes) (csrCheckEnabled : Int) : EstError × Option EcaSettings :=
  match ctx with
  | none => (.noCtx, none)
  | some ctx =>
      if ctx.enhancedCertAuthEnabled then (.alreadyEnabled, some ctx)
      else
        let ctx := { ctx with enhcdCertLocalPkiNid := localPkiSubjFieldNid }
        let pwd := cString (ahPwd.getD (ascii "cisco"))
        if maxUidpwd < pwd.length then (.invalidParameters, some ctx)
        else
          let ctx := { ctx with enhcdCertAuthPwd := pwd }
          if csrCheckEnabled = ecaCsrCheckOn ∨ csrCheckEnabled = ecaCsrCheckOff then
            (.none, some { ctx with
              enhancedCertAuthCsrCheck := csrCheckEnabled, enhancedCertAuthEnabled := true })
          else (.invalidParameters, some ctx)

def estServerEnhancedCertAuthAddMfgInfo (a : AddAnswers) (ctx : Option EcaSettings)
    (mfgName : Option Bytes) (mfgSubjFieldNid : Int) (truststoreBuf : Option Bytes)
    (truststoreBufLen : Int) : EstError × Option EcaSettings :=
  match ctx, mfgName, truststoreBuf with
  | some ctx, some mfgName, some truststoreBuf =>
      if truststoreBufLen = 0 ∨ ctx.enhancedCertAuthEnabled = false then
        (.invalidParameters, some ctx)
      else if ctx.enchdCertMfgsInfoList = none ∧ a.listNew = false then (.malloc, some ctx)
      else
        let (err, slots) := estLoadEnhcdCertAuthManufacturer F a
          (ctx.enchdCertMfgsInfoList.getD (Vector.replicate numSupportedMfg blankSlot)) mfgName
          mfgSubjFieldNid truststoreBuf truststoreBufLen
        (err, some { ctx with enchdCertMfgsInfoList := some slots })
  | ctx, _, _ => (.invalidParameters, ctx)

def estServerDisableEnhancedCertAuth (ctx : Option EcaSettings) : EstError × Option EcaSettings :=
  match ctx with
  | none => (.noCtx, none)
  | some ctx =>
      if ctx.enhancedCertAuthEnabled = false then (.alreadyDisabled, some ctx)
      else
        (.none, some { ctx with enchdCertMfgsInfoList := none, enhancedCertAuthEnabled := false })

end Model

section Calls

/-- A call of the API, with the context or with a null pointer for it. -/
inductive Call where
  | enable (hasCtx : Bool) (localPkiSubjFieldNid : Int) (ahPwd : Option Bytes)
      (csrCheckEnabled : Int)
  | add (hasCtx : Bool) (a : AddAnswers) (mfgName : Option Bytes) (mfgSubjFieldNid : Int)
      (truststoreBuf : Option Bytes) (truststoreBufLen : Int)
  | disable (hasCtx : Bool)

variable (F : FillStore)

/-- What a call returns, and what it leaves behind of the context it was given. -/
def Call.perform (ctx : Option EcaSettings) : Call → EstError × Option EcaSettings
  | .enable _ nid ahPwd csrCheckEnabled =>
      estServerEnableEnhancedCertAuth ctx nid ahPwd csrCheckEnabled
  | .add _ a mfgName nid buf len => estServerEnhancedCertAuthAddMfgInfo F a ctx mfgName nid buf len
  | .disable _ => estServerDisableEnhancedCertAuth ctx

def Call.hasCtx : Call → Bool
  | .enable hasCtx _ _ _ => hasCtx
  | .add hasCtx _ _ _ _ _ => hasCtx
  | .disable hasCtx => hasCtx

def Call.result (s : EcaSettings) (c : Call) : EstError :=
  (c.perform F (if c.hasCtx then some s else none)).1

def Call.after (s : EcaSettings) (c : Call) : EcaSettings :=
  (c.perform F (if c.hasCtx then some s else none)).2.getD s

def step (s : EcaSettings) (c : Call) : Option (EcaSettings × EstError) :=
  some (c.after F s, c.result F s)

end Calls

section Purpose

/-- A manufacturer as the server knows it. -/
structure Manufacturer where
  name : Bytes
  nid : Int
  truststore : X509Store
  deriving DecidableEq

/-- A slot holds a manufacturer when it has a store and a context for it. -/
def MfgSlot.manufacturer (slot : MfgSlot) : Option Manufacturer :=
  match slot.truststore, slot.storeCtx with
  | some store, true => some ⟨slot.name, slot.nid, store⟩
  | _, _ => none

def registeredIn (slots : Vector MfgSlot numSupportedMfg) (i : Fin numSupportedMfg) :
    Option Manufacturer := slots[i].manufacturer

def EcaSettings.registered (s : EcaSettings) : Fin numSupportedMfg → Option Manufacturer :=
  match s.enchdCertMfgsInfoList with
  | none => fun _ => none
  | some slots => registeredIn slots

/-- Neither the registered manufacturers nor the settings have changed. -/
structure Unchanged (s next : EcaSettings) : Prop where
  registered : next.registered = s.registered
  enabled : next.enhancedCertAuthEnabled = s.enhancedCertAuthEnabled
  csrCheck : next.enhancedCertAuthCsrCheck = s.enhancedCertAuthCsrCheck
  localNid : next.enhcdCertLocalPkiNid = s.enhcdCertLocalPkiNid
  pwd : next.enhcdCertAuthPwd = s.enhcdCertAuthPwd

/-- A manufacturer was entered, and all others are as they were. -/
def Entered (s next : EcaSettings) (m : Manufacturer) : Prop :=
  ∃ i, s.registered i = none ∧ next.registered = Function.update s.registered i (some m)

variable (F : FillStore)

/-- The manufacturer that a call is about. -/
def Call.manufacturer : Call → Option Manufacturer
  | .add _ _ (some mfgName) nid (some buf) len => some ⟨cString mfgName, nid, (F buf len).1⟩
  | _ => none

def Call.isAdd : Call → Bool
  | .add _ _ _ _ _ _ => true
  | _ => false

/-- What the result of a call says is what has happened. -/
structure Truthful (s : EcaSettings) (c : Call) : Prop where
  added : c.isAdd → (c.result F s = .none ↔ ∃ m, c.manufacturer F = some m ∧ Entered s (c.after F s) m)
  refused : c.result F s ≠ .none → Unchanged s (c.after F s)

/-- The checks before a manufacturer is loaded all pass. -/
def Loads (s : EcaSettings) (hasCtx : Bool) (a : AddAnswers) (len : Int) : Prop :=
  hasCtx ∧ len ≠ 0 ∧ s.enhancedCertAuthEnabled ∧ (s.enchdCertMfgsInfoList = none → a.listNew)

/-- A slot of the list is free, if there is a list. -/
def HasRoom (s : EcaSettings) : Prop :=
  ∀ slots, s.enchdCertMfgsInfoList = some slots →
    ∃ i : Fin numSupportedMfg, slots[i].truststore = none

/-- A manufacturer is loaded into a list that has room, and its name fits; a refused
attempt to enable finds in place what it sets before it is refused. -/
def Regular (s : EcaSettings) : Call → Prop
  | .enable hasCtx nid ahPwd csrCheckEnabled =>
      let pwd := cString (ahPwd.getD (ascii "cisco"))
      hasCtx → s.enhancedCertAuthEnabled = false →
        (pwd.length ≤ maxUidpwd ∧
          (csrCheckEnabled = ecaCsrCheckOn ∨ csrCheckEnabled = ecaCsrCheckOff)) ∨
        s.enhcdCertLocalPkiNid = nid ∧ (maxUidpwd < pwd.length ∨ s.enhcdCertAuthPwd = pwd)
  | .add hasCtx a (some mfgName) _ (some buf) len =>
      Loads s hasCtx a len → HasRoom s ∧
        (a.storeNew → (F buf len).2 ≠ 0 → a.storeCtxNew →
          (cString mfgName).length ≤ mfgNameMaxLen)
  | _ => True

end Purpose

section Loading

variable {F : FillStore} {slots : Vector MfgSlot numSupportedMfg}

theorem truststore_of_next {i : Fin numSupportedMfg} (h : nextMfgInfoInd slots = some i) :
    slots[i].truststore = none := by
  have hfound := List.find?_some h
  exact of_decide_eq_true hfound

theorem nextMfgInfoInd_eq_none_iff :
    nextMfgInfoInd slots = none ↔ ∀ i : Fin numSupportedMfg, slots[i].truststore ≠ none := by
  unfold nextMfgInfoInd
  rw [List.find?_eq_none]
  simp

theorem manufacturer_of_no_store {slot : MfgSlot} (h : slot.truststore = none) :
    slot.manufacturer = none := by
  unfold MfgSlot.manufacturer
  rw [h]

theorem registeredIn_set (i : Fin numSupportedMfg) (slot : MfgSlot) :
    registeredIn (slots.set i slot) = Function.update (registeredIn slots) i slot.manufacturer := by
  funext j
  unfold registeredIn
  rw [Function.update_apply]
  by_cases hj : j = i
  · subst hj
    simp
  · have hne : (i : Nat) ≠ j := fun h => hj (Fin.ext h.symm)
    rw [if_neg hj]
    simp [hne]

theorem load_full (h : nextMfgInfoInd slots = none) (a : AddAnswers) (mfgName : Bytes) (nid : Int)
    (certs : Bytes) (len : Int) :
    estLoadEnhcdCertAuthManufacturer F a slots mfgName nid certs len = (.none, slots) := by
  unfold estLoadEnhcdCertAuthManufacturer
  rw [h]

/-- What loading does to the first free slot. -/
structure Filled (F : FillStore) (a : AddAnswers) (mfgName : Bytes) (nid : Int) (certs : Bytes)
    (len : Int) (rv : EstError) (slot : MfgSlot) : Prop where
  loaded : rv = .none →
    slot.manufacturer = some ⟨(cString mfgName).take mfgNameMaxLen, nid, (F certs len).1⟩
  failed : rv ≠ .none → slot.manufacturer = none
  returned : rv = .none ↔ a.storeNew ∧ (F certs len).2 ≠ 0 ∧ a.storeCtxNew

theorem load_free {i : Fin numSupportedMfg} (h : nextMfgInfoInd slots = some i) (a : AddAnswers)
    (mfgName : Bytes) (nid : Int) (certs : Bytes) (len : Int) :
    ∃ slot, (estLoadEnhcdCertAuthManufacturer F a slots mfgName nid certs len).2 =
        slots.set i slot ∧
      Filled F a mfgName nid certs len
        (estLoadEnhcdCertAuthManufacturer F a slots mfgName nid certs len).1 slot := by
  unfold estLoadEnhcdCertAuthManufacturer osslInitCertStore
  rw [h, strncpyS_of_lt (Nat.lt_succ_self _)]
  dsimp only
  cases hstore : a.storeNew with
  | false =>
    refine ⟨_, rfl, ?_⟩
    constructor
    · intro hrv
      cases hrv
    · exact fun _ => rfl
    · simp [hstore]
  | true =>
    by_cases hempty : (F certs len).2 = 0
    · rw [if_pos hempty]
      refine ⟨_, rfl, ?_⟩
      constructor
      · intro hrv
        cases hrv
      · exact fun _ => rfl
      · simp [hempty]
    · rw [if_neg hempty]
      cases hctx : a.storeCtxNew with
      | false =>
        refine ⟨_, rfl, ?_⟩
        constructor
        · intro hrv
          cases hrv
        · exact fun _ => rfl
        · simp [hctx]
      | true =>
        refine ⟨_, rfl, ?_⟩
        constructor
        · exact fun _ => rfl
        · exact fun hrv => absurd rfl hrv
        · simp [hstore, hempty, hctx]

end Loading

section Truth

variable {F : FillStore} {s : EcaSettings}

theorem Unchanged.refl (s : EcaSettings) : Unchanged s s := ⟨rfl, rfl, rfl, rfl, rfl⟩

/-- Where no slot has changed, nothing was entered. -/
theorem not_entered_of_same {next : EcaSettings} (h : next.registered = s.registered)
    (m : Manufacturer) : ¬ Entered s next m := by
  intro hentered
  obtain ⟨i, hfree, hnext⟩ := hentered
  have hat := congrFun hnext i
  rw [h, Function.update_self, hfree] at hat
  cases hat

/-- Where a free slot was filled, that manufacturer was entered and no other one. -/
theorem entered_update_iff {next : EcaSettings} {i : Fin numSupportedMfg} {filled : Manufacturer}
    (hfree : s.registered i = none)
    (h : next.registered = Function.update s.registered i (some filled)) (m : Manufacturer) :
    Entered s next m ↔ m = filled := by
  constructor
  · intro hentered
    obtain ⟨j, _, hnext⟩ := hentered
    rw [h] at hnext
    have hat := congrFun hnext i
    rw [Function.update_self] at hat
    by_cases hij : i = j
    · subst hij
      rw [Function.update_self] at hat
      exact (Option.some.inj hat).symm
    · rw [Function.update_of_ne hij, hfree] at hat
      cases hat
  · intro hm
    rw [hm]
    exact ⟨i, hfree, h⟩

/-- A call that is refused and changes nothing is truthful. -/
theorem truthful_of_refused {c : Call} (hrv : c.result F s ≠ .none) (hafter : c.after F s = s) :
    Truthful F s c := by
  constructor
  · intro _
    rw [hafter]
    apply iff_of_false hrv
    intro h
    obtain ⟨m, -, hentered⟩ := h
    exact not_entered_of_same rfl m hentered
  · intro _
    rw [hafter]
    exact .refl s

theorem registered_getD (s : EcaSettings) :
    s.registered = registeredIn
      (s.enchdCertMfgsInfoList.getD (Vector.replicate numSupportedMfg blankSlot)) := by
  unfold EcaSettings.registered
  cases s.enchdCertMfgsInfoList with
  | none =>
    funext i
    simp [registeredIn, MfgSlot.manufacturer, blankSlot]
  | some slots => rfl

theorem hasRoom_iff (s : EcaSettings) :
    HasRoom s ↔ nextMfgInfoInd
      (s.enchdCertMfgsInfoList.getD (Vector.replicate numSupportedMfg blankSlot)) ≠ none := by
  unfold HasRoom
  rw [Ne, nextMfgInfoInd_eq_none_iff, not_forall]
  cases s.enchdCertMfgsInfoList with
  | none =>
    apply iff_of_true
    · intro slots h
      cases h
    · exact ⟨⟨0, by decide⟩, by simp [blankSlot]⟩
  | some slots =>
    constructor
    · intro h
      obtain ⟨i, hfree⟩ := h slots rfl
      exact ⟨i, not_not.mpr hfree⟩
    · intro h slots' hslots
      cases hslots
      obtain ⟨i, hfree⟩ := h
      exact ⟨i, not_not.mp hfree⟩

/-- A call that reaches the list. -/
theorem add_perform {a : AddAnswers} {mfgName : Bytes} {nid : Int} {buf : Bytes} {len : Int}
    (hloads : Loads s true a len) {err : EstError} {filled : Vector MfgSlot numSupportedMfg}
    (hload : estLoadEnhcdCertAuthManufacturer F a
      (s.enchdCertMfgsInfoList.getD (Vector.replicate numSupportedMfg blankSlot)) mfgName nid buf
      len = (err, filled)) :
    (Call.add true a (some mfgName) nid (some buf) len).result F s = err ∧
      (Call.add true a (some mfgName) nid (some buf) len).after F s =
        { s with enchdCertMfgsInfoList := some filled } := by
  obtain ⟨-, hlen, henabled, hlist⟩ := hloads
  have hchecks : ¬ (len = 0 ∨ s.enhancedCertAuthEnabled = false) := by
    rw [not_or]
    exact ⟨hlen, by rw [henabled]; decide⟩
  have halloc : ¬ (s.enchdCertMfgsInfoList = none ∧ a.listNew = false) := by
    intro h
    have hnew := hlist h.1
    rw [h.2] at hnew
    cases hnew
  have hperform : (Call.add true a (some mfgName) nid (some buf) len).perform F (some s) =
      (err, some { s with enchdCertMfgsInfoList := some filled }) := by
    unfold Call.perform estServerEnhancedCertAuthAddMfgInfo
    dsimp only
    rw [if_neg hchecks, if_neg halloc, hload]
  constructor
  · exact congrArg Prod.fst hperform
  · exact congrArg (fun r => r.2.getD s) hperform

/-- One that does not is refused, and changes nothing. -/
theorem add_refused {hasCtx : Bool} {a : AddAnswers} {mfgName buf : Option Bytes} {nid len : Int}
    (h : mfgName = none ∨ buf = none ∨ ¬ Loads s hasCtx a len) :
    (Call.add hasCtx a mfgName nid buf len).result F s ≠ .none ∧
      (Call.add hasCtx a mfgName nid buf len).after F s = s := by
  unfold Call.result Call.after Call.perform Call.hasCtx
  dsimp only
  cases hasCtx with
  | false => exact ⟨by unfold estServerEnhancedCertAuthAddMfgInfo; simp, rfl⟩
  | true =>
    rw [if_pos rfl]
    cases mfgName with
    | none => exact ⟨by unfold estServerEnhancedCertAuthAddMfgInfo; simp, rfl⟩
    | some mfgName =>
      cases buf with
      | none => exact ⟨by unfold estServerEnhancedCertAuthAddMfgInfo; simp, rfl⟩
      | some buf =>
        unfold estServerEnhancedCertAuthAddMfgInfo
        dsimp only
        by_cases hchecks : len = 0 ∨ s.enhancedCertAuthEnabled = false
        · rw [if_pos hchecks]
          exact ⟨by simp, rfl⟩
        · rw [if_neg hchecks]
          by_cases halloc : s.enchdCertMfgsInfoList = none ∧ a.listNew = false
          · rw [if_pos halloc]
            exact ⟨by simp, rfl⟩
          · exfalso
            rw [not_or] at hchecks
            obtain hname | hbuf | hloads := h
            · cases hname
            · cases hbuf
            · apply hloads
              refine ⟨rfl, hchecks.1, Bool.eq_true_of_not_eq_false hchecks.2, ?_⟩
              intro hnone
              by_contra hnew
              exact halloc ⟨hnone, Bool.eq_false_of_not_eq_true hnew⟩

/-- The calls that reach the list are truthful where there is room, and the name fits if
the manufacturer is registered. -/
theorem truthful_add_iff {a : AddAnswers} {mfgName : Bytes} {nid : Int} {buf : Bytes} {len : Int}
    (hloads : Loads s true a len) :
    Truthful F s (.add true a (some mfgName) nid (some buf) len) ↔
      HasRoom s ∧ (a.storeNew → (F buf len).2 ≠ 0 → a.storeCtxNew →
        (cString mfgName).length ≤ mfgNameMaxLen) := by
  have hregistered := registered_getD s
  rw [hasRoom_iff]
  have hperform := @add_perform F s a mfgName nid buf len hloads
  generalize s.enchdCertMfgsInfoList.getD (Vector.replicate numSupportedMfg blankSlot) = slots
    at hregistered hperform ⊢
  cases hnext : nextMfgInfoInd slots with
  | none =>
    -- the list is full: the call says that all went well, and nothing was entered
    obtain ⟨hresult, hafter⟩ := hperform (load_full hnext a mfgName nid buf len)
    apply iff_of_false
    · intro h
      obtain ⟨m, -, hentered⟩ := (h.added rfl).mp hresult
      have hsame : ({ s with enchdCertMfgsInfoList := some slots } : EcaSettings).registered =
          s.registered := hregistered.symm
      rw [hafter] at hentered
      exact not_entered_of_same hsame m hentered
    · exact fun h => h.1 rfl
  | some i =>
    obtain ⟨slot, hset, hfilled⟩ := load_free (F := F) hnext a mfgName nid buf len
    obtain ⟨hresult, hafter⟩ := hperform
      (Prod.ext rfl hset : estLoadEnhcdCertAuthManufacturer F a slots mfgName nid buf len =
        ((estLoadEnhcdCertAuthManufacturer F a slots mfgName nid buf len).1, slots.set i slot))
    generalize (estLoadEnhcdCertAuthManufacturer F a slots mfgName nid buf len).1 = rv
      at hfilled hresult
    have hfree : s.registered i = none := by
      rw [hregistered]
      exact manufacturer_of_no_store (truststore_of_next hnext)
    have hafterList : ((Call.add true a (some mfgName) nid (some buf) len).after F s).registered =
        Function.update s.registered i slot.manufacturer := by
      rw [hafter, hregistered]
      exact registeredIn_set i slot
    rw [and_iff_right (Option.some_ne_none i)]
    by_cases hrv : rv = .none
    · have hslot := hfilled.loaded hrv
      obtain ⟨hstore, hcerts, hctx⟩ := hfilled.returned.mp hrv
      rw [imp_iff_right hstore, imp_iff_right hcerts, imp_iff_right hctx]
      constructor
      · intro h
        obtain ⟨m, hm, hentered⟩ := (h.added rfl).mp (hresult.trans hrv)
        rw [entered_update_iff hfree (hafterList.trans (congrArg _ hslot))] at hentered
        rw [hentered] at hm
        have hname := congrArg Manufacturer.name (Option.some.inj hm)
        have hlength := congrArg List.length hname
        rw [List.length_take] at hlength
        dsimp only at hlength
        omega
      · intro hname
        constructor
        · intro _
          apply iff_of_true (hresult.trans hrv)
          refine ⟨_, rfl, (entered_update_iff hfree (hafterList.trans (congrArg _ hslot)) _).mpr ?_⟩
          rw [List.take_of_length_le hname]
        · exact fun hne => absurd (hresult.trans hrv) hne
    · have hslot := hfilled.failed hrv
      have hsame : ((Call.add true a (some mfgName) nid (some buf) len).after F s).registered =
          s.registered := by
        rw [hafterList, hslot, ← hfree, Function.update_eq_self]
      apply iff_of_true
      · constructor
        · intro _
          apply iff_of_false (fun h => hrv (hresult.symm.trans h))
          intro h
          obtain ⟨m, -, hentered⟩ := h
          exact not_entered_of_same hsame m hentered
        · intro _
          refine ⟨hsame, ?_, ?_, ?_, ?_⟩
          · rw [hafter]
          · rw [hafter]
          · rw [hafter]
          · rw [hafter]
      · intro hstore hcerts hctx
        exact absurd (hfilled.returned.mpr ⟨hstore, hcerts, hctx⟩) hrv

theorem truthful_of_unchanged {c : Call} (hadd : c.isAdd = false)
    (h : c.result F s ≠ .none → Unchanged s (c.after F s)) : Truthful F s c := by
  constructor
  · intro hisAdd
    rw [hadd] at hisAdd
    cases hisAdd
  · exact h

/-- An attempt to enable is truthful where what it sets before it is refused is in place. -/
theorem truthful_enable_iff (hasCtx : Bool) (nid : Int) (ahPwd : Option Bytes)
    (csrCheckEnabled : Int) :
    Truthful F s (.enable hasCtx nid ahPwd csrCheckEnabled) ↔
      Regular F s (.enable hasCtx nid ahPwd csrCheckEnabled) := by
  have hiff : Truthful F s (.enable hasCtx nid ahPwd csrCheckEnabled) ↔
      ((Call.enable hasCtx nid ahPwd csrCheckEnabled).result F s ≠ .none →
        Unchanged s ((Call.enable hasCtx nid ahPwd csrCheckEnabled).after F s)) :=
    ⟨Truthful.refused, truthful_of_unchanged rfl⟩
  rw [hiff]
  unfold Regular Call.result Call.after Call.perform Call.hasCtx
  dsimp only
  cases hasCtx with
  | false => exact iff_of_true (fun _ => .refl s) (fun h => absurd h (by decide))
  | true =>
    rw [if_pos rfl, imp_iff_right rfl]
    unfold estServerEnableEnhancedCertAuth
    dsimp only
    by_cases henabled : s.enhancedCertAuthEnabled = true
    · rw [if_pos henabled]
      apply iff_of_true
      · exact fun _ => .refl s
      · intro hdisabled
        rw [henabled] at hdisabled
        cases hdisabled
    · rw [if_neg henabled, imp_iff_right (Bool.eq_false_of_not_eq_true henabled)]
      generalize cString (ahPwd.getD (ascii "cisco")) = pwd
      by_cases hlong : maxUidpwd < pwd.length
      · rw [if_pos hlong]
        constructor
        · intro h
          exact Or.inr ⟨(h (by simp)).localNid.symm, Or.inl hlong⟩
        · intro h _
          have hnid := (h.resolve_left fun hok => absurd hok.1 (Nat.not_le_of_lt hlong)).1
          exact ⟨rfl, rfl, rfl, hnid.symm, rfl⟩
      · rw [if_neg hlong]
        by_cases hflag : csrCheckEnabled = ecaCsrCheckOn ∨ csrCheckEnabled = ecaCsrCheckOff
        · rw [if_pos hflag]
          apply iff_of_true
          · exact fun hne => absurd rfl hne
          · exact Or.inl ⟨Nat.le_of_not_lt hlong, hflag⟩
        · rw [if_neg hflag]
          constructor
          · intro h
            have hsame := h (by simp)
            exact Or.inr ⟨hsame.localNid.symm, Or.inr hsame.pwd.symm⟩
          · intro h _
            obtain ⟨hnid, hpwd⟩ := h.resolve_left fun hok => hflag hok.2
            exact ⟨rfl, rfl, rfl, hnid.symm, (hpwd.resolve_left hlong).symm⟩

theorem truthful_disable (hasCtx : Bool) : Truthful F s (.disable hasCtx) := by
  apply truthful_of_unchanged rfl
  unfold Call.result Call.after Call.perform Call.hasCtx
  dsimp only
  cases hasCtx with
  | false => exact fun _ => .refl s
  | true =>
    rw [if_pos rfl]
    unfold estServerDisableEnhancedCertAuth
    dsimp only
    by_cases hdisabled : s.enhancedCertAuthEnabled = false
    · rw [if_pos hdisabled]
      exact fun _ => .refl s
    · rw [if_neg hdisabled]
      exact fun hne => absurd rfl hne

theorem truthful_iff_regular (F : FillStore) (s : EcaSettings) (c : Call) :
    Truthful F s c ↔ Regular F s c := by
  cases c with
  | enable hasCtx nid ahPwd csrCheckEnabled => exact truthful_enable_iff hasCtx nid ahPwd csrCheckEnabled
  | disable hasCtx => exact iff_of_true (truthful_disable hasCtx) trivial
  | add hasCtx a mfgName nid buf len =>
    have hrefused (h : mfgName = none ∨ buf = none ∨ ¬ Loads s hasCtx a len) :
        Truthful F s (.add hasCtx a mfgName nid buf len) := by
      obtain ⟨hrv, hafter⟩ := @add_refused F s hasCtx a mfgName buf nid len h
      exact truthful_of_refused hrv hafter
    cases mfgName with
    | none => exact iff_of_true (hrefused (Or.inl rfl)) trivial
    | some mfgName =>
      cases buf with
      | none => exact iff_of_true (hrefused (Or.inr (Or.inl rfl))) trivial
      | some buf =>
        by_cases hloads : Loads s hasCtx a len
        · obtain rfl : hasCtx = true := hloads.1
          rw [truthful_add_iff hloads]
          unfold Regular
          exact (imp_iff_right hloads).symm
        · exact iff_of_true (hrefused (Or.inr (Or.inr hloads))) (fun h => absurd h hloads)

/-- From any state, all calls of a run are truthful just where each of them is regular in
the state that it is made in. -/
theorem registry_truthful_iff (F : FillStore) (s : EcaSettings) (calls : List Call) :
    (∀ front c back mid outs, calls = front ++ c :: back →
      run (step F) s front = some (mid, outs) → Truthful F mid c) ↔
      Guarded (step F) (Regular F) s calls := by
  rw [guarded_iff_forall]
  constructor
  · intro h front c back mid outs hcalls hrun
    exact (truthful_iff_regular F mid c).mp (h front c back mid outs hcalls hrun)
  · intro h front c back mid outs hcalls hrun
    exact (truthful_iff_regular F mid c).mpr (h front c back mid outs hcalls hrun)

/-- The settings of a new context. -/
def newSettings : EcaSettings where
  enhancedCertAuthEnabled := false
  enhancedCertAuthCsrCheck := ecaCsrCheckOff
  enhcdCertLocalPkiNid := 0
  enhcdCertAuthPwd := []
  enchdCertMfgsInfoList := none

def fullSettings : EcaSettings where
  enhancedCertAuthEnabled := true
  enhancedCertAuthCsrCheck := ecaCsrCheckOn
  enhcdCertLocalPkiNid := 13
  enhcdCertAuthPwd := ascii "cisco"
  enchdCertMfgsInfoList := some (Vector.replicate numSupportedMfg ⟨ascii "acme", 105, some ⟨0⟩, true⟩)

def oneCert : FillStore := fun _ _ => (⟨0⟩, 1)

def addCall (name : String) : Call :=
  .add true ⟨true, true, true⟩ (some (ascii name)) 105 (some (ascii "pem")) 3

/-- A fifth manufacturer is taken for entered, and an attempt to enable that is refused
leaves its field behind. -/
theorem registry_not_truthful :
    run (step oneCert) newSettings
        (.enable true 13 none ecaCsrCheckOn :: List.replicate 4 (addCall "acme")) =
      some (fullSettings, List.replicate 5 .none) ∧
    (addCall "other").result oneCert fullSettings = .none ∧
    (addCall "other").after oneCert fullSettings = fullSettings ∧
    ¬ Truthful oneCert fullSettings (addCall "other") ∧
    (Call.enable true 13 none 2).result oneCert newSettings = .invalidParameters ∧
    ((Call.enable true 13 none 2).after oneCert newSettings).enhcdCertLocalPkiNid = 13 ∧
    ¬ Truthful oneCert newSettings (.enable true 13 none 2) := by
  have hresult : (addCall "other").result oneCert fullSettings = .none := by decide +kernel
  have hafter : (addCall "other").after oneCert fullSettings = fullSettings := by decide +kernel
  have hrv : (Call.enable true 13 none 2).result oneCert newSettings = .invalidParameters := by
    decide +kernel
  have hnid : ((Call.enable true 13 none 2).after oneCert newSettings).enhcdCertLocalPkiNid = 13 := by
    decide +kernel
  refine ⟨by decide +kernel, hresult, hafter, ?_, hrv, hnid, ?_⟩
  · intro h
    obtain ⟨m, -, hentered⟩ := (h.added rfl).mp hresult
    rw [hafter] at hentered
    exact not_entered_of_same rfl m hentered
  · intro h
    have hsame := (h.refused (by rw [hrv]; decide)).localNid
    rw [hnid] at hsame
    exact absurd hsame (by decide)

end Truth

end LibEst.Server.MfgRegistry
