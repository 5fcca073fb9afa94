import LibEst.Server.CsrAsn1Reads

/-! Where the walk over a request reads inside of the elements: where they all end where
their headers say, as in a distinguished encoding. The loop over the inside of a value has
one length for all its calls, and what has no length is not taken off behind it. -/
namespace LibEst.Server.CsrAttrs

open LibEst.Basic LibEst.OpenSsl LibEst.Base64 LibEst.Lib.ByteString LibEst.Lib.Der
open LibEst.Lib.Trace LibEst.Asn1 LibEst.Server.Context

variable {A : Asn1Ops}

section Framing

/-- A part of the memory reads as elements that all end where their headers say: from a
place on up to the end of the element that it is in, with the result of the walk there
and the place where that ends. What goes well inside of a value comes to the end of the
value, and what has no stated length ends with the element around it, or ends its walk. -/
inductive Framed (A : Asn1Ops) (mem : Bytes) : Nat → Nat → Nat → Nat → Prop
  | finished (ptr : Nat) : Framed A mem ptr ptr 1 ptr
  | malformed {ptr stop n : Nat} (hlt : ptr < stop)
      (h : elementAt A (mem.drop ptr) (stop - ptr) = .malformed n) : Framed A mem ptr stop 0 (ptr + n)
  | badObject {ptr stop n len : Nat} (hlt : ptr < stop)
      (h : elementAt A (mem.drop ptr) (stop - ptr) = .badObject n len) :
      Framed A mem ptr stop 0 (ptr + n)
  | mark {ptr stop n len : Nat} (hlt : ptr < stop)
      (h : elementAt A (mem.drop ptr) (stop - ptr) = .mark n len) :
      Framed A mem ptr stop 2 (ptr + n + len)
  | value {ptr stop n len rc last : Nat} (hlt : ptr < stop)
      (h : elementAt A (mem.drop ptr) (stop - ptr) = .value n len)
      (hrest : Framed A mem (ptr + n + len) stop rc last) : Framed A mem ptr stop rc last
  | object {ptr stop n len rc last : Nat} {content : Bytes} (hlt : ptr < stop)
      (h : elementAt A (mem.drop ptr) (stop - ptr) = .object n len content)
      (hrest : Framed A mem (ptr + n + len) stop rc last) : Framed A mem ptr stop rc last
  | nestedFailed {ptr stop n len last : Nat} (hlt : ptr < stop)
      (h : elementAt A (mem.drop ptr) (stop - ptr) = .nested n len)
      (hinside : Framed A mem (ptr + n) (ptr + n + len) 0 last) : Framed A mem ptr stop 0 last
  | nested {ptr stop n len inner rc last : Nat} (hlt : ptr < stop)
      (h : elementAt A (mem.drop ptr) (stop - ptr) = .nested n len) (hinner : inner ≠ 0)
      (hinside : Framed A mem (ptr + n) (ptr + n + len) inner (ptr + n + len))
      (hrest : Framed A mem (ptr + n + len) stop rc last) : Framed A mem ptr stop rc last
  | indefiniteFailed {ptr stop n last : Nat} (hlt : ptr < stop)
      (h : elementAt A (mem.drop ptr) (stop - ptr) = .indefinite n)
      (hinside : Framed A mem (ptr + n) stop 0 last) : Framed A mem ptr stop 0 last
  | indefinite {ptr stop n inner last : Nat} (hlt : ptr < stop)
      (h : elementAt A (mem.drop ptr) (stop - ptr) = .indefinite n) (hinner : inner ≠ 0)
      (hinside : Framed A mem (ptr + n) stop inner last) (hend : inner = 2 ∨ last = stop) :
      Framed A mem ptr stop 1 last

variable {mem : Bytes} {fuel : Nat}

/-- The rest of a round, once it is known what is met. -/
def parseElement (A : Asn1Ops) (mem : Bytes) (fuel : Nat) (stop tot : Int) (ptr : Nat)
    (length : Int) (list : List Bytes) : Element → Traced Window Walk
  | .malformed n => pure { rc := 0, ptr := ptr + n, list := list }
  | .indefinite n => do
      let r ← parseLoop A mem fuel stop tot ((ptr + n : Nat) - 1) (ptr + n) (tot - (ptr + n : Nat)) list
      if r.rc = 0 then pure r
      else if r.rc = 2 ∨ r.ptr ≥ tot then pure { r with rc := 1 }
      else parseLoop A mem fuel stop tot ptr r.ptr (length - n) r.list
  | .nested n len => do
      let r ← parseChildren A mem fuel (ptr + n + len) len (ptr + n) list
      if r.rc = 0 then pure r
      else parseLoop A mem fuel stop tot ptr r.ptr (length - n - len) r.list
  | .object n len content => do
      emit ⟨ptr, len + n, stop⟩
      parseLoop A mem fuel stop tot ptr (ptr + n + len) (length - n - len)
        (list ++ [A.oidText content])
  | .badObject n len => do
      emit ⟨ptr, len + n, stop⟩
      pure { rc := 0, ptr := ptr + n, list := list }
  | .mark n len => pure { rc := 2, ptr := ptr + n + len, list := list }
  | .value n len => parseLoop A mem fuel stop tot ptr (ptr + n + len) (length - n - len) list

theorem parseLoop_round {stop tot op : Int} {ptr : Nat} {length : Int} {list : List Bytes}
    (hgo : ptr < tot ∧ op < ptr) :
    parseLoop A mem (fuel + 1) stop tot op ptr length list =
      ⟨⟨ptr, length, stop⟩ :: (parseElement A mem fuel stop tot ptr length list
          (elementAt A (mem.drop ptr) length)).events,
        (parseElement A mem fuel stop tot ptr length list
          (elementAt A (mem.drop ptr) length)).value⟩ := by
  rw [parseLoop, if_pos hgo, emit_bind]
  cases elementAt A (mem.drop ptr) length <;> rfl

theorem parseLoop_over {stop tot op : Int} {ptr : Nat} {length : Int} {list : List Bytes}
    (hgo : ¬ (ptr < tot ∧ op < ptr)) :
    parseLoop A mem (fuel + 1) stop tot op ptr length list =
      pure { rc := 1, ptr := ptr, list := list } := by
  rw [parseLoop, if_neg hgo]

/-- All windows end inside of the elements that they are opened in, which end where this
one does or before, and the result is known. -/
structure Comes (stop rc last : Nat) (t : Traced Window Walk) : Prop where
  windows : ∀ w ∈ t.events, w.Proper ∧ w.stop ≤ stop
  result : ∀ w, t.value = some w → w.rc = rc ∧ w.ptr = last

theorem comes_pure {stop rc last : Nat} {w : Walk} (hrc : w.rc = rc) (hlast : w.ptr = last) :
    Comes stop rc last (pure w) := by
  constructor
  · simp
  · intro w' h
    cases h
    exact ⟨hrc, hlast⟩

theorem Comes.cons {stop rc last : Nat} {t : Traced Window Walk} (h : Comes stop rc last t)
    {w : Window} (hw : w.Proper) (hstop : w.stop ≤ stop) :
    Comes stop rc last ⟨w :: t.events, t.value⟩ := by
  constructor
  · intro w' hw'
    cases List.mem_cons.mp hw' with
    | inl hfirst =>
      rw [hfirst]
      exact ⟨hw, hstop⟩
    | inr hrest => exact h.windows w' hrest
  · exact h.result

theorem comes_bind {stop rc last inner innerRc innerLast : Nat} {m : Traced Window Walk}
    {f : Walk → Traced Window Walk} (hm : Comes inner innerRc innerLast m) (hle : inner ≤ stop)
    (hf : ∀ r, m.value = some r → r.rc = innerRc → r.ptr = innerLast → Comes stop rc last (f r)) :
    Comes stop rc last (m >>= f) := by
  have hwindows : ∀ w ∈ m.events, w.Proper ∧ w.stop ≤ stop := by
    intro w hw
    have := hm.windows w hw
    exact ⟨this.1, by omega⟩
  apply bind_rule (p := Comes stop rc last)
  · intro _
    exact ⟨hwindows, nofun⟩
  · intro r hr
    obtain ⟨hrc, hlast⟩ := hm.result r hr
    have hnext := hf r hr hrc hlast
    constructor
    · intro w hw
      cases List.mem_append.mp hw with
      | inl hfirst => exact hwindows w hfirst
      | inr hlater => exact hnext.windows w hlater
    · exact hnext.result

theorem comes_undefined {stop rc last : Nat} : Comes stop rc last (ofOption none) := by
  constructor
  · simp
  · simp

/-- The inside of a value, where the walk over it comes to the end of the value or fails. -/
theorem children_comes {ptr len rc last out : Nat} (hfailed : rc = 0 → len ≠ 0 ∧ out = 0)
    (hwell : rc ≠ 0 → last = ptr + len ∧ out = 1)
    (hloop : ∀ (fuel : Nat) (op : Int) (list : List Bytes), op < ptr →
      Comes (ptr + len) rc last (parseLoop A mem fuel (ptr + len : Nat) (ptr + len : Nat) op ptr
        ((ptr + len : Nat) - ptr) list))
    (fuel : Nat) (list : List Bytes) :
    Comes (ptr + len) out last (parseChildren A mem fuel (ptr + len) len ptr list) := by
  cases fuel with
  | zero =>
    rw [parseChildren]
    exact comes_undefined
  | succ fuel =>
    rw [parseChildren]
    by_cases hlen : len = 0
    · have hrc : rc ≠ 0 := fun h => (hfailed h).1 hlen
      rw [if_neg (by omega)]
      exact comes_pure (hwell hrc).2.symm (by dsimp only; have := (hwell hrc).1; omega)
    · rw [if_pos (by omega)]
      have hinside := hloop fuel (ptr - 1) list (by omega)
      have hlimit : (((ptr + len : Nat) : Int) - ptr) = len := by omega
      rw [hlimit, Nat.cast_add] at hinside
      rw [Nat.cast_add]
      apply comes_bind hinside (Nat.le_refl _)
      intro r hr hrc hlast
      by_cases hzero : rc = 0
      · rw [if_pos (hrc.trans hzero)]
        exact comes_pure (hrc.trans (hzero.trans (hfailed hzero).2.symm)) hlast
      · rw [if_neg (by omega)]
        cases fuel with
        | zero =>
          rw [parseChildren]
          exact comes_undefined
        | succ fuel =>
          have hend := (hwell hzero).1
          rw [parseChildren, if_neg (by omega)]
          exact comes_pure (hwell hzero).2.symm hlast

theorem comes_of_element {ptr stop rc last : Nat} {e : Element} (hlt : ptr < stop)
    (helement : elementAt A (mem.drop ptr) (stop - ptr) = e)
    (h : ∀ (fuel : Nat) (list : List Bytes),
      Comes stop rc last (parseElement A mem fuel stop stop ptr (stop - ptr) list e))
    (fuel : Nat) (op : Int) (list : List Bytes) (hop : op < ptr) :
    Comes stop rc last (parseLoop A mem fuel stop stop op ptr (stop - ptr) list) := by
  cases fuel with
  | zero =>
    rw [parseLoop]
    exact comes_undefined
  | succ fuel =>
    rw [parseLoop_round (by omega), helement]
    apply (h fuel list).cons
    · unfold Window.Proper
      dsimp only
      omega
    · exact le_refl _

/-- What is framed and fails is not empty. -/
theorem Framed.failed {ptr stop rc last : Nat} (h : Framed A mem ptr stop rc last) :
    rc = 0 → ptr < stop := by
  cases h with
  | finished ptr => exact fun hrc => absurd hrc one_ne_zero
  | malformed hlt helement => exact fun _ => hlt
  | badObject hlt helement => exact fun _ => hlt
  | mark hlt helement => exact fun _ => hlt
  | value hlt helement hrest => exact fun _ => hlt
  | object hlt helement hrest => exact fun _ => hlt
  | nestedFailed hlt helement hinside => exact fun _ => hlt
  | nested hlt helement hinner hinside hrest => exact fun _ => hlt
  | indefiniteFailed hlt helement hinside => exact fun _ => hlt
  | indefinite hlt helement hinner hinside hend => exact fun _ => hlt

/-- A round asks for a header. -/
theorem parseLoop_opens {stop tot op : Int} {ptr : Nat} {length : Int} {list : List Bytes} {w : Walk}
    (h : (parseLoop A mem fuel stop tot op ptr length list).value = some w)
    (hgo : ptr < tot ∧ op < ptr) :
    ⟨ptr, length, stop⟩ ∈ (parseLoop A mem fuel stop tot op ptr length list).events := by
  cases fuel with
  | zero =>
    rw [parseLoop] at h
    cases h
  | succ fuel =>
    rw [parseLoop_round hgo]
    exact List.mem_cons_self

/-- The number of bytes left is wrong as soon as the loop over the inside of a value goes
on behind a part of it, or behind a value without a length. -/
theorem not_proper {stop tot op : Int} {ptr : Nat} {length : Int} {list : List Bytes} {w : Walk}
    (h : (parseLoop A mem fuel stop tot op ptr length list).value = some w)
    (hgo : ptr < tot ∧ op < ptr) (hover : stop < ptr + length)
    (hproper : ∀ w ∈ (parseLoop A mem fuel stop tot op ptr length list).events, w.Proper) :
    False := by
  have := hproper _ (parseLoop_opens h hgo)
  unfold Window.Proper at this
  dsimp only at this
  omega

theorem parseChildren_succ {ep len ptr : Nat} {list : List Bytes} (hlt : ptr < ep) {r : Walk}
    (hr : (parseLoop A mem fuel ep (ptr + len) (ptr - 1) ptr len list).value = some r) :
    parseChildren A mem (fuel + 1) ep len ptr list =
      if r.rc = 0 then
        ⟨(parseLoop A mem fuel ep (ptr + len) (ptr - 1) ptr len list).events, some r⟩
      else
        ⟨(parseLoop A mem fuel ep (ptr + len) (ptr - 1) ptr len list).events ++
            (parseChildren A mem fuel ep len r.ptr r.list).events,
          (parseChildren A mem fuel ep len r.ptr r.list).value⟩ := by
  rw [parseChildren, if_pos hlt, bind_of_value_some hr]
  by_cases hzero : r.rc = 0
  · rw [if_pos hzero, if_pos hzero, pure_events, List.append_nil, pure_value]
  · rw [if_neg hzero, if_neg hzero]

variable (hA : A.Checked)
include hA

theorem Framed.le_stop {ptr stop rc last : Nat} (h : Framed A mem ptr stop rc last) :
    rc ≠ 0 → last ≤ stop := by
  induction h with
  | finished ptr => exact fun _ => le_refl _
  | malformed hlt helement => exact fun hrc => absurd rfl hrc
  | badObject hlt helement => exact fun hrc => absurd rfl hrc
  | mark hlt helement =>
    intro _
    have hfits := (element_fits hA helement).2
    omega
  | value hlt helement hrest ih => exact ih
  | object hlt helement hrest ih => exact ih
  | nestedFailed hlt helement hinside ih => exact fun hrc => absurd rfl hrc
  | nested hlt helement hinner hinside hrest ihinside ihrest => exact ihrest
  | indefiniteFailed hlt helement hinside ih => exact fun hrc => absurd rfl hrc
  | indefinite hlt helement hinner hinside hend ih => exact fun _ => ih hinner

/-- On a part that is framed the walk comes to where the frames do, and reads in them. -/
theorem parseLoop_comes {ptr stop rc last : Nat} (h : Framed A mem ptr stop rc last) :
    ∀ (fuel : Nat) (op : Int) (list : List Bytes), op < ptr →
      Comes stop rc last (parseLoop A mem fuel stop stop op ptr (stop - ptr) list) := by
  induction h with
  | finished ptr =>
    intro fuel op list hop
    cases fuel with
    | zero =>
      rw [parseLoop]
      exact comes_undefined
    | succ fuel =>
      rw [parseLoop_over (by omega)]
      exact comes_pure rfl rfl
  | @malformed ptr stop n hlt helement =>
    apply comes_of_element hlt helement
    intro fuel list
    exact comes_pure rfl rfl
  | @badObject ptr stop n len hlt helement =>
    have hfits := (element_fits hA helement).2
    apply comes_of_element hlt helement
    intro fuel list
    have hrest : Comes stop 0 (ptr + n) (pure { rc := 0, ptr := ptr + n, list := list }) :=
      comes_pure rfl rfl
    apply hrest.cons
    · unfold Window.Proper
      dsimp only
      omega
    · exact le_refl _
  | @mark ptr stop n len hlt helement =>
    apply comes_of_element hlt helement
    intro fuel list
    exact comes_pure rfl rfl
  | @value ptr stop n len rc last hlt helement hrest ih =>
    have hpos := (element_fits hA helement).1
    apply comes_of_element hlt helement
    intro fuel list
    unfold parseElement
    dsimp only
    rw [show (stop : Int) - ptr - n - len = stop - (ptr + n + len : Nat) by omega]
    exact ih fuel ptr list (by omega)
  | @object ptr stop n len rc last content hlt helement hrest ih =>
    have hfits := element_fits hA helement
    obtain ⟨hpos, hle⟩ := hfits
    apply comes_of_element hlt helement
    intro fuel list
    have hlater := ih fuel ptr (list ++ [A.oidText content]) (by omega)
    unfold parseElement
    dsimp only
    rw [show (stop : Int) - ptr - n - len = stop - (ptr + n + len : Nat) by omega]
    apply hlater.cons
    · unfold Window.Proper
      dsimp only
      omega
    · exact le_refl _
  | @nestedFailed ptr stop n len last hlt helement hinside ih =>
    have hle := (element_fits hA helement).2
    have hnonempty := hinside.failed rfl
    apply comes_of_element hlt helement
    intro fuel list
    have hchildren : Comes (ptr + n + len) 0 last
        (parseChildren A mem fuel (ptr + n + len) len (ptr + n) list) :=
      children_comes (fun _ => ⟨by omega, rfl⟩) (fun hrc => absurd rfl hrc) ih fuel list
    apply comes_bind hchildren (by omega)
    intro r hr hrc hlast
    rw [if_pos hrc]
    exact comes_pure hrc hlast
  | @nested ptr stop n len inner rc last hlt helement hinner hinside hrest ihinside ihrest =>
    obtain ⟨hpos, hle⟩ := element_fits hA helement
    apply comes_of_element hlt helement
    intro fuel list
    have hchildren : Comes (ptr + n + len) 1 (ptr + n + len)
        (parseChildren A mem fuel (ptr + n + len) len (ptr + n) list) :=
      children_comes (fun hrc => absurd hrc hinner) (fun _ => ⟨rfl, rfl⟩) ihinside fuel list
    apply comes_bind hchildren (by omega)
    intro r hr hrc hlast
    rw [if_neg (by omega), hlast,
      show (stop : Int) - ptr - n - len = stop - (ptr + n + len : Nat) by omega]
    exact ihrest fuel ptr r.list (by omega)
  | @indefiniteFailed ptr stop n last hlt helement hinside ih =>
    apply comes_of_element hlt helement
    intro fuel list
    have hloop := ih fuel ((ptr + n : Nat) - 1) list (by omega)
    apply comes_bind hloop (le_refl _)
    intro r hr hrc hlast
    rw [if_pos hrc]
    exact comes_pure hrc hlast
  | @indefinite ptr stop n inner last hlt helement hinner hinside hend ih =>
    apply comes_of_element hlt helement
    intro fuel list
    have hloop := ih fuel ((ptr + n : Nat) - 1) list (by omega)
    apply comes_bind hloop (le_refl _)
    intro r hr hrc hlast
    rw [if_neg (by omega), if_pos (by omega)]
    exact comes_pure rfl hlast

/-- The inside of a value is framed where its loop reads in it. -/
theorem framed_of_children {ptr len : Nat}
    (hloop : ∀ (list : List Bytes) (w : Walk),
      (parseLoop A mem fuel (ptr + len : Nat) (ptr + len : Nat) (ptr - 1) ptr
        ((ptr + len : Nat) - ptr) list).value = some w →
      (∀ w ∈ (parseLoop A mem fuel (ptr + len : Nat) (ptr + len : Nat) (ptr - 1) ptr
        ((ptr + len : Nat) - ptr) list).events, w.Proper) →
      Framed A mem ptr (ptr + len) w.rc w.ptr)
    {list : List Bytes} {w : Walk}
    (h : (parseChildren A mem (fuel + 1) (ptr + len) len ptr list).value = some w)
    (hproper : ∀ w ∈ (parseChildren A mem (fuel + 1) (ptr + len) len ptr list).events, w.Proper) :
    (w.rc = 0 → Framed A mem ptr (ptr + len) 0 w.ptr) ∧
      (w.rc ≠ 0 → w.ptr = ptr + len ∧ ∃ inner, inner ≠ 0 ∧
        Framed A mem ptr (ptr + len) inner (ptr + len)) := by
  by_cases hlen : len = 0
  · subst hlen
    rw [parseChildren, if_neg (by omega)] at h
    cases h
    exact ⟨fun hrc => absurd hrc one_ne_zero, fun _ => ⟨rfl, 1, one_ne_zero, .finished ptr⟩⟩
  · have hlimit : (((ptr + len : Nat) : Int) - ptr) = len := by omega
    rw [hlimit, Nat.cast_add] at hloop
    have hlt : ptr < ptr + len := by omega
    cases hr : (parseLoop A mem fuel (ptr + len : Nat) (ptr + len) (ptr - 1) ptr len list).value with
    | none =>
      rw [parseChildren, if_pos hlt, bind_of_value_none hr] at h
      cases h
    | some r =>
      rw [parseChildren_succ hlt hr] at h hproper
      by_cases hzero : r.rc = 0
      · rw [if_pos hzero] at h hproper
        obtain rfl : r = w := Option.some.inj h
        have hframed := hloop list r (by rw [← Nat.cast_add]; exact hr)
          (by rw [← Nat.cast_add]; exact hproper)
        rw [hzero] at hframed
        exact ⟨fun _ => hframed, fun hrc => absurd hzero hrc⟩
      · rw [if_neg hzero] at h hproper
        have hframed := hloop list r (by rw [← Nat.cast_add]; exact hr) (by
          intro v hv
          rw [← Nat.cast_add] at hv
          exact hproper v (List.mem_append_left _ hv))
        have hforward := ((parse_progress hA fuel).1 _ _ _ _ _ _ _ hr).2 (by omega) (by omega) hzero
        have hstop := hframed.le_stop hA hzero
        dsimp only at h hproper
        cases fuel with
        | zero =>
          rw [parseChildren] at h
          cases h
        | succ fuel =>
          by_cases hmore : r.ptr < ptr + len
          · -- a second call is told the length that the first one was told
            exfalso
            cases hnext : (parseLoop A mem fuel (ptr + len : Nat) (r.ptr + len) (r.ptr - 1) r.ptr len
                r.list).value with
            | none =>
              rw [parseChildren, if_pos hmore, bind_of_value_none hnext] at h
              cases h
            | some later =>
              apply not_proper hnext (by omega) (by omega)
              intro v hv
              apply hproper v
              apply List.mem_append_right
              rw [parseChildren_succ hmore hnext]
              by_cases hlater : later.rc = 0
              · rw [if_pos hlater]
                exact hv
              · rw [if_neg hlater]
                exact List.mem_append_left _ hv
          · have hend : r.ptr = ptr + len := by omega
            rw [parseChildren, if_neg hmore] at h
            cases h
            rw [hend] at hframed
            exact ⟨fun hrc => absurd hrc one_ne_zero, fun _ => ⟨hend, r.rc, hzero, hframed⟩⟩

/-- Where the walk reads in the elements, they are framed. -/
theorem framed_of_parseLoop (fuel : Nat) : ∀ (stop ptr : Nat) (op : Int) (list : List Bytes)
    (w : Walk), ptr ≤ stop → op < ptr →
      (parseLoop A mem fuel stop stop op ptr (stop - ptr) list).value = some w →
      (∀ w ∈ (parseLoop A mem fuel stop stop op ptr (stop - ptr) list).events, w.Proper) →
        Framed A mem ptr stop w.rc w.ptr := by
  induction fuel using Nat.strong_induction_on with
  | h fuel ih =>
    intro stop ptr op list w hle hop h hproper
    cases fuel with
    | zero =>
      rw [parseLoop] at h
      cases h
    | succ fuel =>
      by_cases hlt : ptr < stop
      · rw [parseLoop_round (by omega)] at h hproper
        have hlater : ∀ w ∈ (parseElement A mem fuel stop stop ptr (stop - ptr) list
            (elementAt A (mem.drop ptr) (stop - ptr))).events, w.Proper :=
          fun w hw => hproper w (List.mem_cons_of_mem _ hw)
        clear hproper
        dsimp only at h
        cases helement : elementAt A (mem.drop ptr) (stop - ptr) with
        | malformed n =>
          rw [helement] at h
          cases h
          exact .malformed hlt helement
        | indefinite n =>
          obtain ⟨hpos, hend⟩ := element_fits hA helement
          rw [helement] at h hlater
          obtain ⟨r, hr, hrest⟩ := bind_value_eq_some_iff.mp h
          unfold parseElement at hlater
          dsimp only at hlater
          rw [bind_of_value_some hr] at hlater
          have hinside := ih fuel (Nat.lt_succ_self _) stop (ptr + n) _ list r (by omega) (by omega)
            hr (fun w hw => hlater w (List.mem_append_left _ hw))
          have hrestProper := fun v hv => hlater v (List.mem_append_right _ hv)
          by_cases hzero : r.rc = 0
          · rw [if_pos hzero] at hrest
            cases hrest
            rw [hzero] at hinside ⊢
            exact .indefiniteFailed hlt helement hinside
          · have hstop := hinside.le_stop hA hzero
            rw [if_neg hzero] at hrest hrestProper
            by_cases hover : r.rc = 2 ∨ r.ptr ≥ (stop : Int)
            · rw [if_pos hover] at hrest
              cases hrest
              have hend : r.rc = 2 ∨ r.ptr = stop := by omega
              exact .indefinite hlt helement hzero hinside hend
            · rw [if_neg hover] at hrest hrestProper
              have hforward := (parse_progress hA fuel).1 _ _ _ _ _ _ _ hr
              have hmoved := hforward.2 (by omega) (by omega) hzero
              exact absurd hrestProper (not_proper hrest (by omega) (by omega))
        | nested n len =>
          obtain ⟨hpos, hend⟩ := element_fits hA helement
          rw [helement] at h hlater
          obtain ⟨r, hr, hrest⟩ := bind_value_eq_some_iff.mp h
          unfold parseElement at hlater
          dsimp only at hlater
          rw [bind_of_value_some hr] at hlater
          have hrestProper := fun v hv => hlater v (List.mem_append_right _ hv)
          cases fuel with
          | zero =>
            rw [parseChildren] at hr
            cases hr
          | succ fuel =>
            have hchildren := framed_of_children hA (fun list w => ih fuel (by omega) (ptr + n + len)
              (ptr + n) _ list w (by omega) (by omega)) hr
              (fun w hw => hlater w (List.mem_append_left _ hw))
            by_cases hzero : r.rc = 0
            · rw [if_pos hzero] at hrest
              cases hrest
              rw [hzero]
              exact .nestedFailed hlt helement (hchildren.1 hzero)
            · obtain ⟨hptr, inner, hinner, hinside⟩ := hchildren.2 hzero
              rw [if_neg hzero, hptr] at hrest hrestProper
              have hlength : (stop : Int) - ptr - n - len = stop - (ptr + n + len : Nat) := by omega
              rw [hlength] at hrest hrestProper
              exact .nested hlt helement hinner hinside (ih (fuel + 1) (Nat.lt_succ_self _) stop
                (ptr + n + len) _ r.list w (by omega) (by omega) hrest hrestProper)
        | object n len content =>
          obtain ⟨hpos, hend⟩ := element_fits hA helement
          rw [helement] at h hlater
          unfold parseElement at h hlater
          dsimp only at h hlater
          have hlength : (stop : Int) - ptr - n - len = stop - (ptr + n + len : Nat) := by omega
          rw [emit_bind, hlength] at h hlater
          exact .object hlt helement (ih fuel (Nat.lt_succ_self _) stop (ptr + n + len) _ _ w
            (by omega) (by omega) h (fun w hw => hlater w (List.mem_cons_of_mem _ hw)))
        | badObject n len =>
          rw [helement] at h
          cases h
          exact .badObject hlt helement
        | mark n len =>
          rw [helement] at h
          cases h
          exact .mark hlt helement
        | value n len =>
          obtain ⟨hpos, hend⟩ := element_fits hA helement
          rw [helement] at h hlater
          unfold parseElement at h hlater
          dsimp only at h hlater
          have hlength : (stop : Int) - ptr - n - len = stop - (ptr + n + len : Nat) := by omega
          rw [hlength] at h hlater
          exact .value hlt helement (ih fuel (Nat.lt_succ_self _) stop (ptr + n + len) _ _ w
            (by omega) (by omega) h hlater)
      · rw [parseLoop_over (by omega)] at h
        cases h
        obtain rfl : ptr = stop := by omega
        exact .finished ptr

end Framing

section Encoding

variable (hA : A.Lawful)
include hA

theorem elementAt_prim {id : Identifier} {content rest mem : Bytes} {max : Int}
    (hmem : mem = header id false content.length ++ content ++ rest)
    (hsize : id.tag < 2 ^ 31 ∧ content.length < 2 ^ 31)
    (hmax : (header id false content.length).length + content.length ≤ max)
    (hmark : id.cls = 0 → id.tag ≠ 0) (hvalid : id = universal tagObject → oidValid content = true) :
    elementAt A mem max =
      if id = universal tagObject then
        .object (header id false content.length).length content.length content
      else .value (header id false content.length).length content.length := by
  unfold elementAt
  rw [getObject_at hA hmem hsize hmax]
  simp only [Bool.false_eq_true, if_false]
  by_cases hclass : id.cls = 0
  · rw [if_neg (by simp [hclass])]
    by_cases htag : id.tag = tagObject
    · have hid : id = universal tagObject := by
        cases id
        simp_all [universal]
      have hd2i : A.d2iObject mem (content.length + (header id false content.length).length) =
          some (content, (header id false content.length).length + content.length) := by
        subst hid
        exact d2iObject_at hA hmem (hvalid rfl) hsize.2 (by omega)
      rw [if_pos htag, if_pos hid, hd2i]
    · have hother : id ≠ universal tagObject := fun h => htag (by rw [h]; rfl)
      rw [if_neg htag, if_neg (hmark hclass), if_neg hother]
  · have hother : id ≠ universal tagObject := fun h => hclass (by rw [h]; rfl)
    have hval : id.cls.val ≠ 0 := fun h => hclass (Fin.ext h)
    rw [if_pos (by omega), if_neg hother]

theorem elementAt_cons {id : Identifier} {content rest mem : Bytes} {max : Int}
    (hmem : mem = header id true content.length ++ content ++ rest)
    (hsize : id.tag < 2 ^ 31 ∧ content.length < 2 ^ 31)
    (hmax : (header id true content.length).length + content.length ≤ max) :
    elementAt A mem max =
      .nested (header id true content.length).length content.length := by
  unfold elementAt
  rw [getObject_at hA hmem hsize hmax]
  simp only [Bool.false_eq_true, if_false, if_true, false_and]
  rw [if_neg (by omega)]

/-- A distinguished encoding is framed. -/
theorem framed_encode {mem : Bytes} (v : Values) (hv : v.WellFormed) (post : Bytes) (ptr : Nat)
    (hmem : mem.drop ptr = v.encode ++ post) :
    Framed A mem ptr (ptr + v.encode.length) 1 (ptr + v.encode.length) := by
  induction v generalizing post ptr with
  | nil => exact .finished ptr
  | prim id content rest ih =>
    obtain ⟨hsize, huniversal, hrest⟩ := hv
    have hheader := header_length_pos id false content.length
    have hlen : (Values.prim id content rest).encode.length =
        (header id false content.length).length + content.length + rest.encode.length := by
      simp only [Values.encode, List.length_append]
    rw [Values.encode, List.append_assoc] at hmem
    have hlater := ih hrest post (ptr + (header id false content.length).length + content.length)
      (by rw [Nat.add_assoc]; exact drop_past hmem (by rw [List.length_append]))
    have hstop : ptr + (Values.prim id content rest).encode.length =
        ptr + (header id false content.length).length + content.length + rest.encode.length := by
      omega
    rw [hstop]
    have helement := elementAt_prim hA hmem hsize
      (show _ ≤ ((ptr + (header id false content.length).length + content.length +
        rest.encode.length : Nat) : Int) - ptr by omega)
      (fun hclass => (huniversal hclass).1) (by
        intro hid
        subst hid
        exact (huniversal rfl).2.2.2 rfl)
    by_cases hid : id = universal tagObject
    · rw [if_pos hid] at helement
      exact .object (by omega) helement hlater
    · rw [if_neg hid] at helement
      exact .value (by omega) helement hlater
  | cons id children rest ihc ihr =>
    obtain ⟨hsize, -, hchildren, hrest⟩ := hv
    have hheader := header_length_pos id true children.encode.length
    have hlen : (Values.cons id children rest).encode.length =
        (header id true children.encode.length).length + children.encode.length +
          rest.encode.length := by
      simp only [Values.encode, List.length_append]
    rw [Values.encode, List.append_assoc] at hmem
    have hinside : mem.drop (ptr + (header id true children.encode.length).length) =
        children.encode ++ (rest.encode ++ post) := by
      rw [List.append_assoc] at hmem
      exact drop_past hmem rfl
    have hlater := ihr hrest post (ptr + (header id true children.encode.length).length +
      children.encode.length) (drop_past hinside rfl)
    have hstop : ptr + (Values.cons id children rest).encode.length =
        ptr + (header id true children.encode.length).length + children.encode.length +
          rest.encode.length := by
      omega
    rw [hstop]
    exact .nested (by omega)
      (elementAt_cons hA hmem hsize (by omega)) one_ne_zero
      (ihc hchildren (rest.encode ++ post) _ hinside) hlater

end Encoding

section Blob

/-- The walk over a blob ends on any bytes. It is told to read inside of the element that
it is in if and only if the blob is framed, and then reads nothing behind the blob; a
distinguished encoding is framed, and gives the texts of its object identifiers. -/
theorem csr_asn1_parse_reads_framed (hA : A.Checked) (hlawful : A.Lawful) (blob behind : Bytes) :
    (∃ w, (csrAsn1ParseReads A blob behind).value = some w) ∧
    ((∃ rc last, Framed A (blob ++ behind) 0 blob.length rc last) ↔
      ∀ w ∈ (csrAsn1ParseReads A blob behind).events, w.Proper) ∧
    ((∃ rc last, Framed A (blob ++ behind) 0 blob.length rc last) →
      ∀ w ∈ (csrAsn1ParseReads A blob behind).events, w.Inside blob.length) ∧
    ∀ v : Values, v.WellFormed → blob = v.encode →
      Framed A (blob ++ behind) 0 blob.length 1 blob.length ∧
      (csrAsn1ParseReads A blob behind).value =
        some { rc := 1, ptr := blob.length, list := v.oids.map A.oidText } := by
  have htotal : ∃ w, (csrAsn1ParseReads A blob behind).value = some w :=
    parse_total hA blob.length _ _ _ _ _ _ _ (le_refl _) (by omega) (le_refl _)
  have hstart : csrAsn1ParseReads A blob behind =
      parseLoop A (blob ++ behind) (parseRounds blob.length) blob.length blob.length (-1) 0
        (blob.length - (0 : Nat)) [] := by
    rw [csrAsn1ParseReads, Nat.cast_zero, Int.sub_zero]
  have hcomes : ∀ rc last, Framed A (blob ++ behind) 0 blob.length rc last →
      Comes blob.length rc last (csrAsn1ParseReads A blob behind) := by
    intro rc last hframed
    rw [hstart]
    exact parseLoop_comes hA hframed _ _ _ (by decide)
  refine ⟨htotal, ⟨?_, ?_⟩, ?_, ?_⟩
  · intro ⟨rc, last, hframed⟩ w hw
    exact ((hcomes rc last hframed).windows w hw).1
  · intro hproper
    obtain ⟨w, hw⟩ := htotal
    rw [hstart] at hw hproper
    exact ⟨w.rc, w.ptr, framed_of_parseLoop hA _ _ _ _ _ _ (Nat.zero_le _) (by decide) hw hproper⟩
  · intro ⟨rc, last, hframed⟩ w hw
    obtain ⟨hproper, hstop⟩ := (hcomes rc last hframed).windows w hw
    unfold Window.Proper at hproper
    unfold Window.Inside
    omega
  · intro v hv hblob
    have hmem : (blob ++ behind).drop 0 = v.encode ++ behind := by rw [hblob, List.drop_zero]
    have hframed := framed_encode hlawful v hv behind 0 hmem
    rw [Nat.zero_add, ← hblob] at hframed
    refine ⟨hframed, ?_⟩
    obtain ⟨w, hw⟩ := htotal
    have hrounds : requestRounds v ≤ parseRounds blob.length := by
      have hle := requestRounds_le v
      rw [← hblob] at hle
      unfold parseRounds
      nlinarith
    have hwalk := csrAsn1Loop_encode hlawful v hv (blob ++ behind) behind _ hrounds blob.length (-1) 0
      blob.length [] hmem (by decide) (by rw [hblob]; omega) (by rw [hblob])
    have hvalue := (parse_value (parseRounds blob.length)).1 _ _ _ _ _ _ w hw
    rw [hw, ← hvalue, hwalk, Nat.zero_add, ← hblob, List.nil_append]

/-- The sequence holds an end of contents and one more header, which is read with the
length of the whole sequence. -/
theorem csr_asn1_parse_reads_behind :
    (∃ w ∈ (csrAsn1ParseReads hostAsn1 [0x30, 3, 0, 0, 4] []).events, ¬ w.Inside 5) ∧
      (csrAsn1ParseReads hostAsn1 [0x30, 3, 0, 0, 4] [1, 0]).value.map Walk.rc = some 1 ∧
      (csrAsn1ParseReads hostAsn1 [0x30, 3, 0, 0, 4] [2, 0]).value.map Walk.rc = some 0 := by
  constructor
  · exact ⟨⟨4, 3, 5⟩, by decide +kernel, by unfold Window.Inside; decide⟩
  · decide +kernel

theorem csr_asn1_parse_reads_framed_object :
    (∃ w, (csrAsn1ParseReads hostAsn1
        (Values.prim (universal tagObject) oidChallengePassword .nil).encode [0x30]).value = some w) ∧
      ∀ w ∈ (csrAsn1ParseReads hostAsn1
        (Values.prim (universal tagObject) oidChallengePassword .nil).encode [0x30]).events,
        w.Inside (Values.prim (universal tagObject) oidChallengePassword .nil).encode.length := by
  have h := csr_asn1_parse_reads_framed hostAsn1_checked hostAsn1_lawful
    (Values.prim (universal tagObject) oidChallengePassword .nil).encode [0x30]
  have hder := h.2.2.2 (Values.prim (universal tagObject) oidChallengePassword .nil)
    ⟨by decide, by decide +kernel, trivial⟩ rfl
  exact ⟨⟨_, hder.2⟩, h.2.2.1 ⟨_, _, hder.1⟩⟩

end Blob

end LibEst.Server.CsrAttrs
