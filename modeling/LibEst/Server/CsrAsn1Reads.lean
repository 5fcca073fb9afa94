import LibEst.Lib.Trace
import LibEst.Server.CsrAttrsWalk

/-! How far the walk over a request lets OpenSSL read. Every header is asked for with a
pointer and the number of bytes that the walk takes to be left, and that number is handed
on to the inside of constructed values and carried along behind them. -/
namespace LibEst.Server.CsrAttrs

open LibEst.Basic LibEst.OpenSsl LibEst.Base64 LibEst.Lib.ByteString LibEst.Lib.Der
open LibEst.Lib.Trace LibEst.Asn1 LibEst.Server.Context

/-- The bytes that OpenSSL is told it may read, and the end of the element whose inside
is being read. -/
structure Window where
  ptr : Nat
  limit : Int
  stop : Int
  deriving DecidableEq, Repr

def Window.Proper (w : Window) : Prop := w.ptr + w.limit ≤ w.stop

def Window.Inside (size : Nat) (w : Window) : Prop := w.ptr + w.limit ≤ size

/-- What a round of the walk meets; the numbers are the lengths of header and content. -/
inductive Element where
  | malformed (n : Nat)
  | indefinite (n : Nat)
  | nested (n len : Nat)
  | object (n len : Nat) (content : Bytes)
  | badObject (n len : Nat)
  | mark (n len : Nat)
  | value (n len : Nat)
  deriving DecidableEq

variable (A : Asn1Ops)

def elementAt (mem : Bytes) (length : Int) : Element :=
  let h := A.getObject mem length
  if h.error then .malformed h.headerLen
  else if h.constructed then
    if h.len > length - h.headerLen then .malformed h.headerLen
    else if h.indefinite ∧ h.len = 0 then .indefinite h.headerLen
    else .nested h.headerLen h.len
  else if h.xclass ≠ 0 then .value h.headerLen h.len
  else if h.tag = tagObject then
    match A.d2iObject mem (h.len + h.headerLen) with
    | none => .badObject h.headerLen h.len
    | some (object, _) => .object h.headerLen h.len object
  else if h.tag = 0 then .mark h.headerLen h.len
  else .value h.headerLen h.len

mutual

/-- The loop of `est_server_csr_asn1_parse` with the windows it opens. Nothing is
returned where the rounds do not suffice. -/
def parseLoop (mem : Bytes) (fuel : Nat) (stop tot : Int) (op : Int) (ptr : Nat) (length : Int)
    (list : List Bytes) : Traced Window Walk :=
  match fuel with
  | 0 => ofOption none
  | fuel + 1 =>
      if ptr < tot ∧ op < ptr then do
        emit ⟨ptr, length, stop⟩
        match elementAt A (mem.drop ptr) length with
        | .malformed n => pure { rc := 0, ptr := ptr + n, list := list }
        | .indefinite n => do
            let r ← parseLoop mem fuel stop tot ((ptr + n : Nat) - 1) (ptr + n) (tot - (ptr + n : Nat))
              list
            if r.rc = 0 then pure r
            else if r.rc = 2 ∨ r.ptr ≥ tot then pure { r with rc := 1 }
            else parseLoop mem fuel stop tot ptr r.ptr (length - n) r.list
        | .nested n len => do
            let r ← parseChildren mem fuel (ptr + n + len) len (ptr + n) list
            if r.rc = 0 then pure r
            else parseLoop mem fuel stop tot ptr r.ptr (length - n - len) r.list
        | .object n len content => do
            emit ⟨ptr, len + n, stop⟩
            parseLoop mem fuel stop tot ptr (ptr + n + len) (length - n - len)
              (list ++ [A.oidText content])
        | .badObject n len => do
            emit ⟨ptr, len + n, stop⟩
            pure { rc := 0, ptr := ptr + n, list := list }
        | .mark n len => pure { rc := 2, ptr := ptr + n + len, list := list }
        | .value n len =>
            parseLoop mem fuel stop tot ptr (ptr + n + len) (length - n - len) list
      else pure { rc := 1, ptr := ptr, list := list }

/-- The loop over the inside of a constructed value. -/
def parseChildren (mem : Bytes) (fuel : Nat) (ep len : Nat) (ptr : Nat) (list : List Bytes) :
    Traced Window Walk :=
  match fuel with
  | 0 => ofOption none
  | fuel + 1 =>
      if ptr < ep then do
        let r ← parseLoop mem fuel ep (ptr + len) (ptr - 1) ptr len list
        if r.rc = 0 then pure r else parseChildren mem fuel ep len r.ptr r.list
      else pure { rc := 1, ptr := ptr, list := list }

end

/-- Rounds that suffice for a window of this size. -/
def parseRounds (n : Nat) : Nat := (n + 1) * (n + 1) + 1

/-- `est_server_csr_asn1_parse` on a blob that has other memory behind it. -/
def csrAsn1ParseReads (blob behind : Bytes) : Traced Window Walk :=
  parseLoop A (blob ++ behind) (parseRounds blob.length) blob.length blob.length (-1) 0
    blob.length []

variable {A}

section Rounds

variable {mem : Bytes} {fuel : Nat} {stop tot op : Int} {ptr : Nat} {length : Int}
  {list : List Bytes}

theorem csrAsn1Loop_element :
    csrAsn1Loop A mem (fuel + 1) tot op ptr length list =
      if ptr < tot ∧ op < ptr then
        match elementAt A (mem.drop ptr) length with
        | .malformed n => { rc := 0, ptr := ptr + n, list := list }
        | .indefinite n =>
            let r := csrAsn1Loop A mem fuel tot ((ptr + n : Nat) - 1) (ptr + n)
              (tot - (ptr + n : Nat)) list
            if r.rc = 0 then r
            else if r.rc = 2 ∨ r.ptr ≥ tot then { r with rc := 1 }
            else csrAsn1Loop A mem fuel tot ptr r.ptr (length - n) r.list
        | .nested n len =>
            let r := csrAsn1Children A mem fuel (ptr + n + len) len (ptr + n) list
            if r.rc = 0 then r
            else csrAsn1Loop A mem fuel tot ptr r.ptr (length - n - len) r.list
        | .object n len content =>
            csrAsn1Loop A mem fuel tot ptr (ptr + n + len) (length - n - len)
              (list ++ [A.oidText content])
        | .badObject n _ => { rc := 0, ptr := ptr + n, list := list }
        | .mark n len => { rc := 2, ptr := ptr + n + len, list := list }
        | .value n len =>
            csrAsn1Loop A mem fuel tot ptr (ptr + n + len) (length - n - len) list
      else { rc := 1, ptr := ptr, list := list } := by
  rw [csrAsn1Loop]
  unfold elementAt
  dsimp only
  by_cases hgo : ptr < tot ∧ op < ptr
  · rw [if_pos hgo, if_pos hgo]
    generalize A.getObject (mem.drop ptr) length = h
    by_cases herror : h.error = true
    · rw [if_pos herror, if_pos herror]
    · rw [if_neg herror, if_neg herror]
      by_cases hcons : h.constructed = true
      · rw [if_pos hcons, if_pos hcons]
        by_cases hlong : h.len > length - h.headerLen
        · rw [if_pos hlong, if_pos hlong]
        · rw [if_neg hlong, if_neg hlong]
          by_cases hindef : h.indefinite = true ∧ h.len = 0
          · rw [if_pos hindef, if_pos hindef]
          · rw [if_neg hindef, if_neg hindef]
      · rw [if_neg hcons, if_neg hcons]
        by_cases hclass : h.xclass ≠ 0
        · rw [if_pos hclass, if_pos hclass]
        · rw [if_neg hclass, if_neg hclass]
          by_cases hobject : h.tag = tagObject
          · rw [if_pos hobject, if_pos hobject]
            cases A.d2iObject (mem.drop ptr) (h.len + h.headerLen) with
            | none => rfl
            | some object => rfl
          · rw [if_neg hobject, if_neg hobject]
            by_cases hmark : h.tag = 0
            · rw [if_pos hmark, if_pos hmark]
            · rw [if_neg hmark, if_neg hmark]
  · rw [if_neg hgo, if_neg hgo]

/-- Where it does not run out of rounds, the walk with its windows is the walk. -/
theorem parse_value (fuel : Nat) :
    (∀ stop tot op ptr length list w,
      (parseLoop A mem fuel stop tot op ptr length list).value = some w →
        csrAsn1Loop A mem fuel tot op ptr length list = w) ∧
    ∀ ep len ptr list w, (parseChildren A mem fuel ep len ptr list).value = some w →
      csrAsn1Children A mem fuel ep len ptr list = w := by
  induction fuel with
  | zero =>
    constructor
    · intro stop tot op ptr length list w h
      rw [parseLoop] at h
      cases h
    · intro ep len ptr list w h
      rw [parseChildren] at h
      cases h
  | succ fuel ih =>
    obtain ⟨hloop, hchildren⟩ := ih
    constructor
    · intro stop tot op ptr length list w h
      rw [parseLoop] at h
      rw [csrAsn1Loop_element]
      by_cases hgo : ptr < tot ∧ op < ptr
      · rw [if_pos hgo] at h ⊢
        rw [emit_bind] at h
        dsimp only at h
        cases helement : elementAt A (mem.drop ptr) length with
        | malformed n =>
          rw [helement] at h
          exact Option.some.inj h
        | indefinite n =>
          rw [helement] at h
          obtain ⟨r, hr, hrest⟩ := bind_value_eq_some_iff.mp h
          dsimp only
          rw [hloop _ _ _ _ _ _ _ hr]
          by_cases hzero : r.rc = 0
          · rw [if_pos hzero] at hrest ⊢
            exact Option.some.inj hrest
          · rw [if_neg hzero] at hrest ⊢
            by_cases hend : r.rc = 2 ∨ r.ptr ≥ tot
            · rw [if_pos hend] at hrest ⊢
              exact Option.some.inj hrest
            · rw [if_neg hend] at hrest ⊢
              exact hloop _ _ _ _ _ _ _ hrest
        | nested n len =>
          rw [helement] at h
          obtain ⟨r, hr, hrest⟩ := bind_value_eq_some_iff.mp h
          dsimp only
          rw [hchildren _ _ _ _ _ hr]
          by_cases hzero : r.rc = 0
          · rw [if_pos hzero] at hrest ⊢
            exact Option.some.inj hrest
          · rw [if_neg hzero] at hrest ⊢
            exact hloop _ _ _ _ _ _ _ hrest
        | object n len content =>
          rw [helement] at h
          exact hloop _ _ _ _ _ _ _ h
        | badObject n len =>
          rw [helement] at h
          exact Option.some.inj h
        | mark n len =>
          rw [helement] at h
          exact Option.some.inj h
        | value n len =>
          rw [helement] at h
          exact hloop _ _ _ _ _ _ _ h
      · rw [if_neg hgo] at h ⊢
        exact Option.some.inj h
    · intro ep len ptr list w h
      rw [parseChildren] at h
      rw [csrAsn1Children]
      by_cases hgo : ptr < ep
      · rw [if_pos hgo] at h ⊢
        obtain ⟨r, hr, hrest⟩ := bind_value_eq_some_iff.mp h
        dsimp only
        rw [hloop _ _ _ _ _ _ _ hr]
        by_cases hzero : r.rc = 0
        · rw [if_pos hzero] at hrest ⊢
          exact Option.some.inj hrest
        · rw [if_neg hzero] at hrest ⊢
          exact hchildren _ _ _ _ _ hrest
      · rw [if_neg hgo] at h ⊢
        exact Option.some.inj h

end Rounds

section Termination

theorem parseRounds_step {n len : Nat} (h : len < n) :
    len + 1 + parseRounds len + 1 ≤ parseRounds n := by
  obtain ⟨k, rfl⟩ := Nat.exists_eq_add_of_lt h
  unfold parseRounds
  nlinarith

variable (hA : A.Checked)
include hA

/-- What is met moves the walk on, and ends where the walk was told to. -/
def Element.Fits (length : Int) : Element → Prop
  | .malformed _ => True
  | .indefinite n => 0 < n ∧ n ≤ length
  | .nested n len => 0 < n ∧ n + len ≤ length
  | .object n len _ => 0 < n ∧ n + len ≤ length
  | .badObject n len => 0 < n ∧ n + len ≤ length
  | .mark n len => 0 < n ∧ n + len ≤ length
  | .value n len => 0 < n ∧ n + len ≤ length

theorem elementAt_fits (mem : Bytes) (length : Int) : (elementAt A mem length).Fits length := by
  unfold elementAt
  dsimp only
  by_cases herror : (A.getObject mem length).error = true
  · rw [if_pos herror]
    trivial
  · have hok := Bool.eq_false_iff.mpr herror
    have hpos := hA.headerLen_pos mem length hok
    have hfits := hA.fits mem length hok
    rw [if_neg herror]
    by_cases hcons : (A.getObject mem length).constructed = true
    · rw [if_pos hcons]
      split
      · trivial
      · split
        · exact ⟨hpos, by omega⟩
        · exact ⟨hpos, hfits⟩
    · rw [if_neg hcons]
      split
      · exact ⟨hpos, hfits⟩
      · split
        · cases A.d2iObject mem ((A.getObject mem length).len + (A.getObject mem length).headerLen) with
          | none => exact ⟨hpos, hfits⟩
          | some object => exact ⟨hpos, hfits⟩
        · split
          · exact ⟨hpos, hfits⟩
          · exact ⟨hpos, hfits⟩

theorem element_fits {mem : Bytes} {length : Int} {e : Element} (h : elementAt A mem length = e) :
    e.Fits length := by
  rw [← h]
  exact elementAt_fits hA mem length

/-- The walk never goes back; where it goes well, a round goes forward, and the loop over
the inside of a value comes to its end. -/
theorem parse_progress {mem : Bytes} (fuel : Nat) :
    (∀ stop tot op ptr length list w,
      (parseLoop A mem fuel stop tot op ptr length list).value = some w →
        ptr ≤ w.ptr ∧ (ptr < tot → op < ptr → w.rc ≠ 0 → ptr < w.ptr)) ∧
    ∀ ep len ptr list w, (parseChildren A mem fuel ep len ptr list).value = some w →
      ptr ≤ w.ptr ∧ (w.rc ≠ 0 → ep ≤ w.ptr) := by
  induction fuel with
  | zero =>
    constructor
    · intro stop tot op ptr length list w h
      rw [parseLoop] at h
      cases h
    · intro ep len ptr list w h
      rw [parseChildren] at h
      cases h
  | succ fuel ih =>
    obtain ⟨hloop, hchildren⟩ := ih
    constructor
    · intro stop tot op ptr length list w h
      rw [parseLoop] at h
      by_cases hgo : ptr < tot ∧ op < ptr
      · rw [if_pos hgo, emit_bind] at h
        dsimp only at h
        cases helement : elementAt A (mem.drop ptr) length with
        | malformed n =>
          rw [helement] at h
          cases h
          exact ⟨Nat.le_add_right _ _, fun _ _ hrc => absurd rfl hrc⟩
        | indefinite n =>
          have hfits := element_fits hA helement
          rw [helement] at h
          obtain ⟨r, hr, hrest⟩ := bind_value_eq_some_iff.mp h
          have hforward := (hloop _ _ _ _ _ _ _ hr).1
          have hpos := hfits.1
          by_cases hzero : r.rc = 0
          · rw [if_pos hzero] at hrest
            cases hrest
            exact ⟨by omega, fun _ _ hrc => absurd hzero hrc⟩
          · rw [if_neg hzero] at hrest
            by_cases hend : r.rc = 2 ∨ r.ptr ≥ tot
            · rw [if_pos hend] at hrest
              cases hrest
              exact ⟨by dsimp only; omega, fun _ _ _ => by dsimp only; omega⟩
            · rw [if_neg hend] at hrest
              have hlater := (hloop _ _ _ _ _ _ _ hrest).1
              exact ⟨by omega, fun _ _ _ => by omega⟩
        | nested n len =>
          have hfits := element_fits hA helement
          rw [helement] at h
          obtain ⟨r, hr, hrest⟩ := bind_value_eq_some_iff.mp h
          have hforward := (hchildren _ _ _ _ _ hr).1
          have hpos := hfits.1
          by_cases hzero : r.rc = 0
          · rw [if_pos hzero] at hrest
            cases hrest
            exact ⟨by omega, fun _ _ hrc => absurd hzero hrc⟩
          · rw [if_neg hzero] at hrest
            have hlater := (hloop _ _ _ _ _ _ _ hrest).1
            exact ⟨by omega, fun _ _ _ => by omega⟩
        | object n len content =>
          have hpos := (element_fits hA helement).1
          rw [helement] at h
          have hlater := (hloop _ _ _ _ _ _ _ h).1
          exact ⟨by omega, fun _ _ _ => by omega⟩
        | badObject n len =>
          rw [helement] at h
          cases h
          exact ⟨Nat.le_add_right _ _, fun _ _ hrc => absurd rfl hrc⟩
        | mark n len =>
          have hpos := (element_fits hA helement).1
          rw [helement] at h
          cases h
          exact ⟨by dsimp only; omega, fun _ _ _ => by dsimp only; omega⟩
        | value n len =>
          have hpos := (element_fits hA helement).1
          rw [helement] at h
          have hlater := (hloop _ _ _ _ _ _ _ h).1
          exact ⟨by omega, fun _ _ _ => by omega⟩
      · rw [if_neg hgo] at h
        cases h
        exact ⟨Nat.le_refl _, fun hlt hop => absurd ⟨hlt, hop⟩ hgo⟩
    · intro ep len ptr list w h
      rw [parseChildren] at h
      by_cases hgo : ptr < ep
      · rw [if_pos hgo] at h
        obtain ⟨r, hr, hrest⟩ := bind_value_eq_some_iff.mp h
        have hforward := (hloop _ _ _ _ _ _ _ hr).1
        by_cases hzero : r.rc = 0
        · rw [if_pos hzero] at hrest
          cases hrest
          exact ⟨hforward, fun hrc => absurd hzero hrc⟩
        · rw [if_neg hzero] at hrest
          obtain ⟨hlater, hend⟩ := hchildren _ _ _ _ _ hrest
          exact ⟨by omega, hend⟩
      · rw [if_neg hgo] at h
        cases h
        exact ⟨Nat.le_refl _, fun _ => Nat.le_of_not_lt hgo⟩

/-- The loop over the inside comes to an end where every call that it makes does. -/
theorem children_total {mem : Bytes} {ep len rounds : Nat} (hlen : 0 < len)
    (hloop : ∀ (fuel ptr : Nat) (list : List Bytes), rounds ≤ fuel →
      ∃ r, (parseLoop A mem fuel ep (ptr + len) (ptr - 1) ptr len list).value = some r)
    {left fuel ptr : Nat} (hleft : ep - ptr ≤ left) (hfuel : left + 1 + rounds ≤ fuel)
    (list : List Bytes) : ∃ w, (parseChildren A mem fuel ep len ptr list).value = some w := by
  induction left generalizing fuel ptr list with
  | zero =>
    obtain ⟨fuel, rfl⟩ := Nat.exists_eq_add_one.mpr (show 0 < fuel by omega)
    rw [parseChildren, if_neg (by omega)]
    exact ⟨_, rfl⟩
  | succ left ih =>
    obtain ⟨fuel, rfl⟩ := Nat.exists_eq_add_one.mpr (show 0 < fuel by omega)
    rw [parseChildren]
    by_cases hgo : ptr < ep
    · rw [if_pos hgo]
      obtain ⟨r, hr⟩ := hloop fuel ptr list (by omega)
      rw [bind_of_value_some hr]
      dsimp only
      by_cases hzero : r.rc = 0
      · rw [if_pos hzero]
        exact ⟨_, rfl⟩
      · rw [if_neg hzero]
        have hforward := ((parse_progress hA fuel).1 _ _ _ _ _ _ _ hr).2 (by omega) (by omega) hzero
        exact ih (by omega) (by omega) r.list
    · rw [if_neg hgo]
      exact ⟨_, rfl⟩

/-- The walk comes to an end on any bytes. -/
theorem parse_total {mem : Bytes} (n : Nat) : ∀ (fuel : Nat) (stop tot op : Int) (ptr : Nat)
    (length : Int) (list : List Bytes), length ≤ n → tot - ptr ≤ length → parseRounds n ≤ fuel →
      ∃ w, (parseLoop A mem fuel stop tot op ptr length list).value = some w := by
  induction n using Nat.strong_induction_on with
  | h n ih =>
    intro fuel stop tot op ptr length list hlength htot hfuel
    have hrounds : 0 < parseRounds n := Nat.succ_pos _
    obtain ⟨fuel, rfl⟩ := Nat.exists_eq_add_one.mpr (Nat.lt_of_lt_of_le hrounds hfuel)
    rw [parseLoop]
    by_cases hgo : ptr < tot ∧ op < ptr
    · rw [if_pos hgo, emit_bind]
      -- every round takes at least one byte of the length
      have hstep (m : Nat) (hm : m < n) : parseRounds m ≤ fuel := by
        have := @parseRounds_step n m hm
        omega
      dsimp only
      have hfits := elementAt_fits hA (mem.drop ptr) length
      cases helement : elementAt A (mem.drop ptr) length with
      | malformed k => exact ⟨_, rfl⟩
      | indefinite k =>
        rw [helement] at hfits
        obtain ⟨hpos, hle⟩ := hfits
        obtain ⟨r, hr⟩ := ih (n - 1) (by omega) fuel stop tot ((ptr + k : Nat) - 1) (ptr + k)
          (tot - (ptr + k : Nat)) list (by omega) (by omega) (hstep _ (by omega))
        have hforward := ((parse_progress hA fuel).1 _ _ _ _ _ _ _ hr).1
        dsimp only
        rw [bind_of_value_some hr]
        dsimp only
        by_cases hzero : r.rc = 0
        · rw [if_pos hzero]
          exact ⟨_, rfl⟩
        · rw [if_neg hzero]
          by_cases hend : r.rc = 2 ∨ r.ptr ≥ tot
          · rw [if_pos hend]
            exact ⟨_, rfl⟩
          · rw [if_neg hend]
            exact ih (n - 1) (by omega) fuel stop tot ptr r.ptr (length - k) r.list (by omega)
              (by omega) (hstep _ (by omega))
      | nested k len =>
        rw [helement] at hfits
        obtain ⟨hpos, hle⟩ := hfits
        have hlen : len < n := by omega
        have hchildren : ∃ w, (parseChildren A mem fuel (ptr + k + len) len (ptr + k) list).value =
            some w := by
          by_cases hempty : len = 0
          · subst hempty
            obtain ⟨fuel, rfl⟩ := Nat.exists_eq_add_one.mpr
              (Nat.lt_of_lt_of_le (Nat.succ_pos _) (hstep 0 hlen))
            rw [parseChildren, if_neg (by omega)]
            exact ⟨_, rfl⟩
          · apply children_total hA (Nat.pos_of_ne_zero hempty) (fun fuel ptr list hfuel =>
              ih len hlen fuel _ _ _ ptr len list (by omega) (by omega) hfuel)
              (show ptr + k + len - (ptr + k) ≤ len by omega)
            have := @parseRounds_step n len hlen
            omega
        obtain ⟨r, hr⟩ := hchildren
        obtain ⟨hforward, hend⟩ := (parse_progress hA fuel).2 _ _ _ _ _ hr
        dsimp only
        rw [bind_of_value_some hr]
        dsimp only
        by_cases hzero : r.rc = 0
        · rw [if_pos hzero]
          exact ⟨_, rfl⟩
        · rw [if_neg hzero]
          have := hend hzero
          exact ih (n - 1) (by omega) fuel stop tot ptr r.ptr (length - k - len) r.list (by omega)
            (by omega) (hstep _ (by omega))
      | object k len content =>
        rw [helement] at hfits
        obtain ⟨hpos, hle⟩ := hfits
        exact ih (n - 1) (by omega) fuel stop tot ptr (ptr + k + len) (length - k - len) _
          (by omega) (by omega) (hstep _ (by omega))
      | badObject k len => exact ⟨_, rfl⟩
      | mark k len => exact ⟨_, rfl⟩
      | value k len =>
        rw [helement] at hfits
        obtain ⟨hpos, hle⟩ := hfits
        exact ih (n - 1) (by omega) fuel stop tot ptr (ptr + k + len) (length - k - len) _
          (by omega) (by omega) (hstep _ (by omega))
    · rw [if_neg hgo]
      exact ⟨_, rfl⟩

end Termination

end LibEst.Server.CsrAttrs
