import Mathlib.Logic.Relation

/-! Loops whose body goes on with a new state or stops with a result. A loop is
run with fuel; a measure that every turn makes smaller says how much is enough,
and then the result can be followed turn by turn. -/
namespace LibEst.Lib.Loop

variable {σ ρ : Type}

inductive Turn (σ ρ : Type) where
  | more (next : σ)
  | stop (result : ρ)
  deriving DecidableEq

def loop (body : σ → Turn σ ρ) : Nat → σ → Option ρ
  | 0, _ => none
  | fuel + 1, s =>
      match body s with
      | .more next => loop body fuel next
      | .stop result => some result

/-- Every turn that does not stop makes the measure smaller. -/
def Shrinks (body : σ → Turn σ ρ) (size : σ → Nat) : Prop :=
  ∀ s next, body s = .more next → size next < size s

variable {body : σ → Turn σ ρ} {size : σ → Nat}

theorem loop_isSome (shrinks : Shrinks body size) {fuel : Nat} {s : σ} (h : size s < fuel) :
    (loop body fuel s).isSome := by
  induction fuel generalizing s with
  | zero => exact absurd h (Nat.not_lt_zero _)
  | succ fuel ih =>
    rw [loop]
    split
    · rename_i next hnext
      have hsize := shrinks s next hnext
      exact ih (by omega)
    · rfl

/-- The result of a loop that is known to end. -/
def loopTotal (body : σ → Turn σ ρ) (size : σ → Nat) (shrinks : Shrinks body size) (s : σ) : ρ :=
  (loop body (size s + 1) s).get (loop_isSome shrinks (Nat.lt_succ_self _))

/-- One state comes after another in the course of a loop. -/
def Reaches (body : σ → Turn σ ρ) : σ → σ → Prop :=
  Relation.ReflTransGen fun s next => body s = .more next

theorem Reaches.step {s next : σ} (h : body s = .more next) : Reaches body s next :=
  Relation.ReflTransGen.single h

theorem Reaches.trans {s mid last : σ} (front : Reaches body s mid) (back : Reaches body mid last) :
    Reaches body s last :=
  Relation.ReflTransGen.trans front back

/-- A state that is reached is the first one, or comes after the turn that follows. -/
theorem Reaches.head_cases {s last : σ} (h : Reaches body s last) :
    last = s ∨ ∃ next, body s = .more next ∧ Reaches body next last := by
  cases Relation.ReflTransGen.cases_head h with
  | inl hrefl => exact Or.inl hrefl.symm
  | inr hstep => exact Or.inr hstep

/-- What a turn keeps in safe states holds of every state that is reached, where safety
follows from it there. -/
theorem Reaches.keeps {inv safe : σ → Prop} {first s : σ} (hfirst : inv first)
    (hstep : ∀ s next, inv s → safe s → body s = .more next → inv next)
    (hsafe : ∀ s, Reaches body first s → inv s → safe s) (h : Reaches body first s) : inv s := by
  induction h with
  | refl => exact hfirst
  | tail hfront hmore ih => exact hstep _ _ ih (hsafe _ hfront ih) hmore

theorem loop_of_reaches (shrinks : Shrinks body size) {s last : σ} {result : ρ}
    (front : Reaches body s last) (hstop : body last = .stop result) {fuel : Nat}
    (hfuel : size s < fuel) : loop body fuel s = some result := by
  induction front using Relation.ReflTransGen.head_induction_on generalizing fuel with
  | refl =>
    cases fuel with
    | zero => exact absurd hfuel (Nat.not_lt_zero _)
    | succ fuel => rw [loop, hstop]
  | head hstep _ ih =>
    rename_i first next _
    have hsize := shrinks first next hstep
    cases fuel with
    | zero => exact absurd hfuel (Nat.not_lt_zero _)
    | succ fuel =>
      rw [loop, hstep]
      exact ih (by omega)

/-- Where a state that stops is reached, its result is the result of the loop. -/
theorem loopTotal_of_reaches (shrinks : Shrinks body size) {s last : σ} {result : ρ}
    (front : Reaches body s last) (hstop : body last = .stop result) :
    loopTotal body size shrinks s = result := by
  have hloop := loop_of_reaches shrinks front hstop (Nat.lt_succ_self (size s))
  unfold loopTotal
  simp only [hloop, Option.get_some]

/-- Every run comes to a state that stops. -/
theorem reaches_stop (shrinks : Shrinks body size) (s : σ) :
    ∃ last result, Reaches body s last ∧ body last = .stop result := by
  induction h : size s using Nat.strongRecOn generalizing s with
  | ind n ih =>
    cases hturn : body s with
    | stop result => exact ⟨s, result, Relation.ReflTransGen.refl, hturn⟩
    | more next =>
      obtain ⟨last, result, hreach, hstop⟩ := ih (size next) (h ▸ shrinks s next hturn) next rfl
      exact ⟨last, result, (Reaches.step hturn).trans hreach, hstop⟩

theorem loopTotal_stop (shrinks : Shrinks body size) {s : σ} {result : ρ}
    (h : body s = .stop result) : loopTotal body size shrinks s = result :=
  loopTotal_of_reaches shrinks Relation.ReflTransGen.refl h

theorem loopTotal_more (shrinks : Shrinks body size) {s next : σ} (h : body s = .more next) :
    loopTotal body size shrinks s = loopTotal body size shrinks next := by
  obtain ⟨last, result, hreach, hstop⟩ := reaches_stop shrinks next
  rw [loopTotal_of_reaches shrinks hreach hstop,
    loopTotal_of_reaches shrinks ((Reaches.step h).trans hreach) hstop]

theorem loop_rule {inv : σ → Prop} {post : ρ → Prop}
    (hmore : ∀ s next, inv s → body s = .more next → inv next)
    (hstop : ∀ s result, inv s → body s = .stop result → post result)
    {fuel : Nat} {s : σ} {result : ρ} (hinv : inv s) (h : loop body fuel s = some result) :
    post result := by
  induction fuel generalizing s with
  | zero => cases h
  | succ fuel ih =>
    rw [loop] at h
    split at h
    · rename_i next hnext
      exact ih (hmore s next hinv hnext) h
    · rename_i last hlast
      cases h
      exact hstop s _ hinv hlast

/-- What every turn keeps holds of the state at which the loop stops. -/
theorem loopTotal_rule (shrinks : Shrinks body size) {inv : σ → Prop} {post : ρ → Prop}
    (hmore : ∀ s next, inv s → body s = .more next → inv next)
    (hstop : ∀ s result, inv s → body s = .stop result → post result) {s : σ} (hinv : inv s) :
    post (loopTotal body size shrinks s) :=
  loop_rule hmore hstop hinv (Option.some_get _).symm

/-- Two turns that go on together or stop together. -/
inductive Turn.Both (states : σ → σ → Prop) (results : ρ → ρ → Prop) :
    Turn σ ρ → Turn σ ρ → Prop
  | more {s t : σ} (h : states s t) : Both states results (.more s) (.more t)
  | stop {a b : ρ} (h : results a b) : Both states results (.stop a) (.stop b)

theorem loop_both {states : σ → σ → Prop} {results : ρ → ρ → Prop}
    (turns : ∀ s t, states s t → Turn.Both states results (body s) (body t))
    {fuel : Nat} {s t : σ} {a b : ρ} (h : states s t) (ha : loop body fuel s = some a)
    (hb : loop body fuel t = some b) : results a b := by
  induction fuel generalizing s t with
  | zero => cases ha
  | succ fuel ih =>
    rw [loop] at ha hb
    have hturn := turns s t h
    generalize body s = first at ha hturn
    generalize body t = second at hb hturn
    cases hturn with
    | more hnext => exact ih hnext ha hb
    | stop hresult =>
      cases ha
      cases hb
      exact hresult

/-- Two runs of a loop whose turns go on and stop together. -/
theorem loopTotal_both (shrinks : Shrinks body size) {states : σ → σ → Prop}
    {results : ρ → ρ → Prop} (sizes : ∀ s t, states s t → size s = size t)
    (turns : ∀ s t, states s t → Turn.Both states results (body s) (body t)) {s t : σ}
    (h : states s t) :
    results (loopTotal body size shrinks s) (loopTotal body size shrinks t) := by
  apply loop_both turns h (Option.some_get _).symm
  rw [sizes s t h]
  exact (Option.some_get _).symm

end LibEst.Lib.Loop
