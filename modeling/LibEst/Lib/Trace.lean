import Mathlib.Data.List.Basic

/-! Computations that report events on their way. What has been reported stays
reported where the behaviour becomes undefined later on, so that a statement about
the events covers those runs as well. -/
namespace LibEst.Lib.Trace

variable {ε α β : Type}

/-- The events and the value, null where the behaviour is undefined. -/
structure Traced (ε α : Type) where
  events : List ε
  value : Option α

protected def Traced.bind (m : Traced ε α) (f : α → Traced ε β) : Traced ε β :=
  match m.value with
  | none => ⟨m.events, none⟩
  | some a => ⟨m.events ++ (f a).events, (f a).value⟩

instance : Monad (Traced ε) where
  pure a := ⟨[], some a⟩
  bind := Traced.bind

def emit (e : ε) : Traced ε Unit := ⟨[e], some ()⟩

/-- A computation without events that may be undefined. -/
def ofOption (value : Option α) : Traced ε α := ⟨[], value⟩

@[simp] theorem pure_events (a : α) : (pure a : Traced ε α).events = [] := rfl
@[simp] theorem pure_value (a : α) : (pure a : Traced ε α).value = some a := rfl
@[simp] theorem emit_events (e : ε) : (emit e).events = [e] := rfl
@[simp] theorem emit_value (e : ε) : (emit e).value = some () := rfl
@[simp] theorem ofOption_events (value : Option α) :
    (ofOption value : Traced ε α).events = [] := rfl
@[simp] theorem ofOption_value (value : Option α) :
    (ofOption value : Traced ε α).value = value := rfl

theorem bind_of_value_none {m : Traced ε α} (h : m.value = none) (f : α → Traced ε β) :
    (m >>= f) = ⟨m.events, none⟩ := by
  change Traced.bind m f = _
  unfold Traced.bind
  rw [h]

theorem bind_of_value_some {m : Traced ε α} {a : α} (h : m.value = some a)
    (f : α → Traced ε β) :
    (m >>= f) = ⟨m.events ++ (f a).events, (f a).value⟩ := by
  change Traced.bind m f = _
  unfold Traced.bind
  rw [h]

@[simp] theorem mk_some_bind (events : List ε) (a : α) (f : α → Traced ε β) :
    (⟨events, some a⟩ : Traced ε α) >>= f = ⟨events ++ (f a).events, (f a).value⟩ := rfl

@[simp] theorem mk_none_bind (events : List ε) (f : α → Traced ε β) :
    (⟨events, none⟩ : Traced ε α) >>= f = ⟨events, none⟩ := rfl

@[simp] theorem pure_bind (a : α) (f : α → Traced ε β) : (pure a : Traced ε α) >>= f = f a := by
  rw [bind_of_value_some (pure_value a), pure_events, List.nil_append]

@[simp] theorem emit_bind (e : ε) (f : Unit → Traced ε β) :
    emit e >>= f = ⟨e :: (f ()).events, (f ()).value⟩ := by
  rw [bind_of_value_some (emit_value e), emit_events, List.singleton_append]

/-- A result that is only looked at differently. -/
theorem bind_pure_eq (m : Traced ε α) (f : α → β) :
    (m >>= fun a => pure (f a)) = ⟨m.events, m.value.map f⟩ := by
  obtain ⟨events, value⟩ := m
  cases value with
  | none => rfl
  | some a =>
    rw [mk_some_bind, pure_events, List.append_nil]
    rfl

/-- The rule of sequencing: what holds of the first part alone where it is
undefined, and of both parts where it has a value, holds of the whole. -/
theorem bind_rule {p : Traced ε β → Prop} {m : Traced ε α} {f : α → Traced ε β}
    (undefined : m.value = none → p ⟨m.events, none⟩)
    (next : ∀ a, m.value = some a → p ⟨m.events ++ (f a).events, (f a).value⟩) :
    p (m >>= f) := by
  cases h : m.value with
  | none =>
    rw [bind_of_value_none h]
    exact undefined h
  | some a =>
    rw [bind_of_value_some h]
    exact next a h

theorem bind_value_eq_some_iff {m : Traced ε α} {f : α → Traced ε β} {b : β} :
    (m >>= f).value = some b ↔ ∃ a, m.value = some a ∧ (f a).value = some b := by
  cases h : m.value with
  | none =>
    rw [bind_of_value_none h]
    simp
  | some a =>
    rw [bind_of_value_some h]
    simp

/-- Events are counted part by part. -/
theorem bind_countP_le {p : ε → Bool} {m : Traced ε α} {f : α → Traced ε β} {i j : Nat}
    (hm : m.events.countP p ≤ i) (hf : ∀ a, m.value = some a → (f a).events.countP p ≤ j) :
    (m >>= f).events.countP p ≤ i + j := by
  apply bind_rule (p := fun t => t.events.countP p ≤ i + j)
  · intro _
    exact Nat.le_add_right_of_le hm
  · intro a ha
    rw [List.countP_append]
    exact Nat.add_le_add hm (hf a ha)

/-- What holds of the events of each part holds of all events. -/
theorem bind_forall_events {p : ε → Prop} {m : Traced ε α} {f : α → Traced ε β}
    (hm : ∀ e ∈ m.events, p e) (hf : ∀ a, m.value = some a → ∀ e ∈ (f a).events, p e) :
    ∀ e ∈ (m >>= f).events, p e := by
  apply bind_rule (p := fun t => ∀ e ∈ t.events, p e)
  · intro _
    exact hm
  · intro a ha e he
    cases List.mem_append.mp he with
    | inl hfirst => exact hm e hfirst
    | inr hsecond => exact hf a ha e hsecond

/-- What has happened is not undone. -/
theorem bind_events_ne_nil {t : Traced ε α} (f : α → Traced ε β) (h : t.events ≠ []) :
    (t >>= f).events ≠ [] := by
  cases hvalue : t.value with
  | none => rwa [bind_of_value_none hvalue]
  | some a =>
    rw [bind_of_value_some hvalue]
    exact List.append_ne_nil_of_left_ne_nil h _

section Naming

variable {ε' : Type}

/-- The same computation, with other names for its events. -/
def Traced.rename (f : ε → ε') (t : Traced ε α) : Traced ε' α := ⟨t.events.map f, t.value⟩

@[simp] theorem rename_events (f : ε → ε') (t : Traced ε α) :
    (t.rename f).events = t.events.map f := rfl

@[simp] theorem rename_value (f : ε → ε') (t : Traced ε α) : (t.rename f).value = t.value := rfl

end Naming

section Judging

variable {κ : Type} {note : κ → ε → κ} {good : κ → ε → Prop} {rel : κ → α → Prop} {k : κ}
  {events later : List ε} {mid last : Option α}

/-- The note that an observer has after some events. -/
def noted (note : κ → ε → κ) (k : κ) (events : List ε) : κ := events.foldl note k

theorem noted_append (k : κ) (events later : List ε) :
    noted note k (events ++ later) = noted note (noted note k events) later :=
  List.foldl_append ..

theorem noted_eq_self (h : ∀ e ∈ events, ∀ k, note k e = k) : noted note k events = k := by
  induction events with
  | nil => rfl
  | cons e events ih =>
    change noted note (note k e) events = k
    rw [h e (by simp)]
    exact ih fun e he => h e (by simp [he])

/-- Every event is good by the note before it. -/
def Judged (note : κ → ε → κ) (good : κ → ε → Prop) (k : κ) : List ε → Prop
  | [] => True
  | e :: rest => good k e ∧ Judged note good (note k e) rest

instance [∀ k e, Decidable (good k e)] : ∀ k events, Decidable (Judged note good k events)
  | _, [] => isTrue trivial
  | k, e :: rest =>
      have := instDecidableJudged (note k e) rest
      inferInstanceAs (Decidable (good k e ∧ Judged note good (note k e) rest))

theorem judged_append (h : Judged note good k events)
    (hlater : Judged note good (noted note k events) later) :
    Judged note good k (events ++ later) := by
  induction events generalizing k with
  | nil => exact hlater
  | cons e events ih => exact ⟨h.1, ih h.2 hlater⟩

theorem Judged.at {front back : List ε} {e : ε} (h : Judged note good k (front ++ e :: back)) :
    good (noted note k front) e := by
  induction front generalizing k with
  | nil => exact h.1
  | cons e' front ih => exact ih h.2

theorem judged_of_forall
    (h : ∀ front e back, events = front ++ e :: back → good (noted note k front) e) :
    Judged note good k events := by
  induction events generalizing k with
  | nil => trivial
  | cons e events ih =>
    refine ⟨h [] e events rfl, ih ?_⟩
    intro front e' back hevents
    exact h (e :: front) e' back (by rw [hevents, List.cons_append])

/-- A part of a trace, and what is left at its end: the events are good, and what is
left agrees with the note. -/
structure Part (note : κ → ε → κ) (good : κ → ε → Prop) (rel : κ → α → Prop) (k : κ)
    (events : List ε) (last : Option α) : Prop where
  judged : Judged note good k events
  left : ∀ a, last = some a → rel (noted note k events) a

theorem part_nil (h : ∀ a, last = some a → rel k a) : Part note good rel k [] last :=
  ⟨trivial, h⟩

theorem Part.weaken (h : Part note good rel k events mid)
    (hlast : ∀ a, last = some a → mid = some a) : Part note good rel k events last :=
  ⟨h.judged, fun a ha => h.left a (hlast a ha)⟩

theorem Part.append (h : Part note good rel k events mid)
    (hlater : Part note good rel (noted note k events) later last) :
    Part note good rel k (events ++ later) last := by
  refine ⟨judged_append h.judged hlater.judged, ?_⟩
  intro a ha
  rw [noted_append]
  exact hlater.left a ha

end Judging

end LibEst.Lib.Trace
