import Mathlib.Data.List.Basic

/-! Runs of a deterministic machine whose steps may be undefined. A step takes
an input, moves the state and emits one output; a run threads the state and
collects the outputs. The rules below reduce a statement about runs to one
about a single step. -/
namespace LibEst.Lib.Machine

variable {σ ι ο τ : Type}

def run (step : σ → ι → Option (σ × ο)) (s : σ) : List ι → Option (σ × List ο)
  | [] => some (s, [])
  | i :: rest => do
      let (next, out) ← step s i
      let (last, outs) ← run step next rest
      pure (last, out :: outs)

/-- Every step of a run meets a condition on its input and the state before it. -/
def Guarded (step : σ → ι → Option (σ × ο)) (ok : σ → ι → Prop) (s : σ) : List ι → Prop
  | [] => True
  | i :: rest => ok s i ∧ ∀ next out, step s i = some (next, out) → Guarded step ok next rest

variable {step : σ → ι → Option (σ × ο)} {ok : σ → ι → Prop} {inv : σ → Prop}

@[simp] theorem run_nil (s : σ) : run step s [] = some (s, []) := rfl

theorem run_cons_iff {s last : σ} {i : ι} {rest : List ι} {outs : List ο} :
    run step s (i :: rest) = some (last, outs) ↔
      ∃ next out tail, step s i = some (next, out) ∧
        run step next rest = some (last, tail) ∧ outs = out :: tail := by
  constructor
  · intro h
    simp only [run, Option.bind_eq_bind, Option.bind_eq_some_iff] at h
    obtain ⟨⟨next, out⟩, hstep, ⟨last', tail⟩, hrun, h⟩ := h
    cases h
    exact ⟨next, out, tail, hstep, hrun, rfl⟩
  · rintro ⟨next, out, tail, hstep, hrun, rfl⟩
    simp [run, hstep, hrun]

theorem Guarded.append_left {s : σ} {front back : List ι}
    (h : Guarded step ok s (front ++ back)) : Guarded step ok s front := by
  induction front generalizing s with
  | nil => trivial
  | cons i front ih => exact ⟨h.1, fun next out hstep => ih (h.2 next out hstep)⟩

theorem Guarded.append_right {s mid : σ} {front back : List ι} {outs : List ο}
    (h : Guarded step ok s (front ++ back)) (hrun : run step s front = some (mid, outs)) :
    Guarded step ok mid back := by
  induction front generalizing s outs with
  | nil => cases hrun; exact h
  | cons i front ih =>
    obtain ⟨next, out, tail, hstep, hrest, rfl⟩ := run_cons_iff.mp hrun
    exact ih (h.2 next out hstep) hrest

/-- A run meets a condition step by step just where every step of it does, in the state
that the steps before it lead to. -/
theorem guarded_iff_forall {s : σ} {inputs : List ι} :
    Guarded step ok s inputs ↔ ∀ front i back mid outs, inputs = front ++ i :: back →
      run step s front = some (mid, outs) → ok mid i := by
  induction inputs generalizing s with
  | nil =>
    constructor
    · intro _ front i back mid outs hinputs
      exact absurd hinputs.symm (List.append_ne_nil_of_right_ne_nil front (List.cons_ne_nil i back))
    · intro _
      trivial
  | cons j rest ih =>
    constructor
    · intro h front i back mid outs hinputs hrun
      cases front with
      | nil =>
        cases hinputs
        cases hrun
        exact h.1
      | cons k front =>
        obtain ⟨rfl, hrest⟩ := List.cons.inj hinputs
        obtain ⟨next, out, tail, hstep, hlater, -⟩ := run_cons_iff.mp hrun
        exact ih.mp (h.2 next out hstep) front i back mid tail hrest hlater
    · intro hall
      refine ⟨hall [] j rest s [] rfl rfl, ?_⟩
      intro next out hstep
      apply ih.mpr
      intro front i back mid outs hrest hrun
      exact hall (j :: front) i back mid (out :: outs) (by rw [hrest]; rfl)
        (run_cons_iff.mpr ⟨next, out, outs, hstep, hrun, rfl⟩)

/-- A condition that asks for nothing is met by every run. -/
theorem guarded_true (s : σ) (inputs : List ι) : Guarded step (fun _ _ => True) s inputs := by
  induction inputs generalizing s with
  | nil => trivial
  | cons i rest ih => exact ⟨trivial, fun next _ _ => ih next⟩

/-- What holds of every input may be added to the condition of the steps. -/
theorem Guarded.and_mem {p : ι → Prop} {s : σ} {inputs : List ι} (h : Guarded step ok s inputs)
    (hp : ∀ i ∈ inputs, p i) : Guarded step (fun s i => ok s i ∧ p i) s inputs := by
  induction inputs generalizing s with
  | nil => trivial
  | cons i rest ih =>
    refine ⟨⟨h.1, hp i (by simp)⟩, ?_⟩
    intro next out hstep
    exact ih (h.2 next out hstep) fun j hj => hp j (by simp [hj])

instance decidableGuarded [∀ s i, Decidable (ok s i)] (s : σ) :
    (inputs : List ι) → Decidable (Guarded step ok s inputs)
  | [] => .isTrue trivial
  | i :: rest =>
      match hstep : step s i with
      | none => decidable_of_iff (ok s i) (by simp [Guarded, hstep])
      | some (next, out) =>
          have := decidableGuarded next rest
          decidable_of_iff (ok s i ∧ Guarded step ok next rest) (by
            constructor
            · rintro ⟨hok, hrest⟩
              refine ⟨hok, ?_⟩
              intro next' out' heq
              cases hstep.symm.trans heq
              exact hrest
            · rintro ⟨hok, hrest⟩
              exact ⟨hok, hrest next out hstep⟩)

/-- The invariant rule: a step that keeps `inv` when its condition holds gives
`inv` at the end of every run whose steps all meet the condition. -/
theorem run_invariant
    (keep : ∀ s i next out, inv s → ok s i → step s i = some (next, out) → inv next)
    {s last : σ} {inputs : List ι} {outs : List ο} (hs : inv s)
    (hok : Guarded step ok s inputs) (h : run step s inputs = some (last, outs)) : inv last := by
  induction inputs generalizing s outs with
  | nil => cases h; exact hs
  | cons i rest ih =>
    obtain ⟨next, out, tail, hstep, hrun, rfl⟩ := run_cons_iff.mp h
    exact ih (keep s i next out hs hok.1 hstep) (hok.2 next out hstep) hrun

/-- The invariant rule with the past in view: `inv` may speak of the inputs and
outputs so far. -/
theorem run_history {inv : List ι → List ο → σ → Prop}
    (keep : ∀ past outs s i next out, inv past outs s → ok s i → step s i = some (next, out) →
      inv (past ++ [i]) (outs ++ [out]) next)
    {s last : σ} {inputs : List ι} {outs : List ο} (hs : inv [] [] s)
    (hok : Guarded step ok s inputs) (h : run step s inputs = some (last, outs)) :
    inv inputs outs last := by
  have hmore : ∀ (inputs : List ι) (s : σ) (past : List ι) (before outs : List ο),
      inv past before s → Guarded step ok s inputs → run step s inputs = some (last, outs) →
      inv (past ++ inputs) (before ++ outs) last := by
    intro inputs
    induction inputs with
    | nil =>
      intro s past before outs hs _ h
      cases h
      simpa using hs
    | cons i rest ih =>
      intro s past before outs hs hok h
      obtain ⟨next, out, tail, hstep, hrun, rfl⟩ := run_cons_iff.mp h
      have hnext := keep past before s i next out hs hok.1 hstep
      have hrest := ih next (past ++ [i]) (before ++ [out]) tail hnext (hok.2 next out hstep) hrun
      simpa using hrest
  simpa using hmore inputs s [] [] outs hs hok h

/-- What every step that meets its condition emits, a run emits throughout. -/
theorem run_outputs {p : ο → Prop}
    (each : ∀ s i next out, ok s i → step s i = some (next, out) → p out)
    {s last : σ} {inputs : List ι} {outs : List ο} (hok : Guarded step ok s inputs)
    (h : run step s inputs = some (last, outs)) : ∀ out ∈ outs, p out := by
  induction inputs generalizing s outs with
  | nil =>
    cases h
    simp
  | cons i rest ih =>
    obtain ⟨next, out, tail, hstep, hrun, rfl⟩ := run_cons_iff.mp h
    intro other hother
    rcases List.mem_cons.mp hother with rfl | htail
    · exact each s i next other hok.1 hstep
    · exact ih (hok.2 next out hstep) hrun other htail

/-- A condition that says exactly when a step keeps `inv` says exactly when all
states that a run passes through have it, as far as the steps are defined. -/
theorem guarded_iff_invariant_of_defined {defined : σ → ι → Prop}
    (exact : ∀ s i, inv s → defined s i →
      ∃ next out, step s i = some (next, out) ∧ (inv next ↔ ok s i))
    {s : σ} (hs : inv s) {inputs : List ι} (hdefined : Guarded step defined s inputs) :
    Guarded step ok s inputs ↔
      ∀ front mid outs, front <+: inputs → run step s front = some (mid, outs) → inv mid := by
  induction inputs generalizing s with
  | nil =>
    constructor
    · intro _ front mid outs hfront hrun
      rw [List.prefix_nil] at hfront
      subst hfront
      cases hrun
      exact hs
    · intro _
      trivial
  | cons i rest ih =>
    obtain ⟨next, out, hstep, hnext⟩ := exact s i hs hdefined.1
    have hlater := hdefined.2 next out hstep
    constructor
    · intro hguard front mid outs hfront hrun
      cases front with
      | nil =>
        cases hrun
        exact hs
      | cons j front =>
        obtain ⟨rfl, hrest⟩ := List.cons_prefix_cons.mp hfront
        obtain ⟨next', out', tail, hstep', hrun', -⟩ := run_cons_iff.mp hrun
        rw [hstep, Option.some.injEq, Prod.mk.injEq] at hstep'
        have hkept := hnext.mpr hguard.1
        rw [hstep'.1] at hstep hkept hlater
        exact (ih hkept hlater).mp (hguard.2 next' out hstep) front mid tail hrest hrun'
    · intro hall
      have hkept : inv next :=
        hall [i] next [out] (List.cons_prefix_cons.mpr ⟨rfl, List.nil_prefix⟩)
          (run_cons_iff.mpr ⟨next, out, [], hstep, rfl, rfl⟩)
      refine ⟨hnext.mp hkept, ?_⟩
      intro next' out' hstep'
      rw [hstep, Option.some.injEq, Prod.mk.injEq] at hstep'
      rw [← hstep'.1]
      apply (ih hkept hlater).mpr
      intro front mid outs hfront hrun
      exact hall (i :: front) mid (out :: outs) (List.cons_prefix_cons.mpr ⟨rfl, hfront⟩)
        (run_cons_iff.mpr ⟨next, out, outs, hstep, hrun, rfl⟩)

/-- The same for a machine whose steps are all defined. -/
theorem guarded_iff_invariant
    (exact : ∀ s i, inv s → ∃ next out, step s i = some (next, out) ∧ (inv next ↔ ok s i))
    {s : σ} (hs : inv s) (inputs : List ι) :
    Guarded step ok s inputs ↔
      ∀ front mid outs, front <+: inputs → run step s front = some (mid, outs) → inv mid :=
  guarded_iff_invariant_of_defined (fun s i hinv _ => exact s i hinv) hs (guarded_true s inputs)

/-- Steps that meet their condition are defined, hence whole runs are. -/
theorem run_defined
    (defined : ∀ s i, inv s → ok s i → ∃ next out, step s i = some (next, out) ∧ inv next)
    {s : σ} {inputs : List ι} (hs : inv s) (hok : Guarded step ok s inputs) :
    ∃ last outs, run step s inputs = some (last, outs) := by
  induction inputs generalizing s with
  | nil => exact ⟨s, [], rfl⟩
  | cons i rest ih =>
    obtain ⟨next, out, hstep, hnext⟩ := defined s i hs hok.1
    obtain ⟨last, outs, hrun⟩ := ih hnext (hok.2 next out hstep)
    exact ⟨last, out :: outs, run_cons_iff.mpr ⟨next, out, outs, hstep, hrun, rfl⟩⟩

/-- An observer keeps a note of the inputs and outputs, and finds each output right
by the note that was kept before it. -/
def Observed (note : τ → ι → ο → τ) (right : τ → ι → ο → Prop) (t : τ) : List ι → List ο → Prop
  | i :: rest, out :: outs => right t i out ∧ Observed note right (note t i out) rest outs
  | _, _ => True

/-- The refinement rule: where the notes of an observer stay in a relation with the
states of the machine, they explain every output of a run. -/
theorem run_observed {note : τ → ι → ο → τ} {right : τ → ι → ο → Prop} {rel : σ → τ → Prop}
    (each : ∀ s t i next out, rel s t → ok s i → step s i = some (next, out) →
      right t i out ∧ rel next (note t i out))
    {s last : σ} {t : τ} {inputs : List ι} {outs : List ο} (hrel : rel s t)
    (hok : Guarded step ok s inputs) (h : run step s inputs = some (last, outs)) :
    Observed note right t inputs outs := by
  induction inputs generalizing s t outs with
  | nil => trivial
  | cons i rest ih =>
    obtain ⟨next, out, tail, hstep, hrun, rfl⟩ := run_cons_iff.mp h
    obtain ⟨hright, hnext⟩ := each s t i next out hrel hok.1 hstep
    exact ⟨hright, ih hnext (hok.2 next out hstep) hrun⟩

/-- A machine with a history variable that its steps do not read. -/
def tracked (step : σ → ι → Option (σ × ο)) (note : σ → ι → ο → τ → τ) (s : σ × τ) (i : ι) :
    Option ((σ × τ) × ο) :=
  (step s.1 i).map fun (next, out) => ((next, note s.1 i out s.2), out)

theorem tracked_eq_some_iff {note : σ → ι → ο → τ → τ} {s next : σ × τ} {i : ι} {out : ο} :
    tracked step note s i = some (next, out) ↔
      step s.1 i = some (next.1, out) ∧ next.2 = note s.1 i out s.2 := by
  unfold tracked
  rw [Option.map_eq_some_iff]
  constructor
  · rintro ⟨⟨state, out'⟩, hstep, heq⟩
    cases heq
    exact ⟨hstep, rfl⟩
  · rintro ⟨hstep, hnote⟩
    refine ⟨(next.1, out), hstep, ?_⟩
    simp only
    rw [← hnote]

/-- The history variable changes nothing about a run. -/
theorem run_of_tracked {note : σ → ι → ο → τ → τ} {s last : σ × τ} {inputs : List ι} {outs : List ο}
    (h : run (tracked step note) s inputs = some (last, outs)) :
    run step s.1 inputs = some (last.1, outs) := by
  induction inputs generalizing s outs with
  | nil => cases h; rfl
  | cons i rest ih =>
    obtain ⟨next, out, tail, hstep, hrun, rfl⟩ := run_cons_iff.mp h
    exact run_cons_iff.mpr ⟨next.1, out, tail, (tracked_eq_some_iff.mp hstep).1, ih hrun, rfl⟩

end LibEst.Lib.Machine
