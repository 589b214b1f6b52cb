import SvcLbMux.Library.Loop

/-- A computation emits items, one after another, and ends or fails. What it has emitted before a
failure stays. -/
structure Emission (ω ε α : Type*) where
  emitted : List ω
  outcome : Except ε α

namespace Emission

universe u

variable {ω ε : Type*} {α β σ : Type u}

protected def pure (a : α) : Emission ω ε α := ⟨[], .ok a⟩

protected def bind (e : Emission ω ε α) (f : α → Emission ω ε β) : Emission ω ε β :=
  match e.outcome with
  | .error error => ⟨e.emitted, .error error⟩
  | .ok a => ⟨e.emitted ++ (f a).emitted, (f a).outcome⟩

instance : Monad (Emission ω ε) where
  pure := Emission.pure
  bind := Emission.bind

def emit (items : List ω) : Emission ω ε Unit := ⟨items, .ok ()⟩

def attempt (outcome : Except ε α) : Emission ω ε α := ⟨[], outcome⟩

/-- The loop over `as` whose body emits. -/
def loop (step : σ → α → Emission ω ε (σ × β)) : List α → σ → Emission ω ε (σ × List (α × β))
  | [], s => pure (s, [])
  | a :: as, s => do
    let turn ← step s a
    let rest ← loop step as turn.1
    pure (rest.1, (a, turn.2) :: rest.2)

/-! ## What is emitted, and how it ends -/

@[simp] theorem outcome_pure (a : α) : (pure a : Emission ω ε α).outcome = .ok a := rfl

@[simp] theorem emitted_pure (a : α) : (pure a : Emission ω ε α).emitted = [] := rfl

@[simp] theorem outcome_emit (items : List ω) : (emit items : Emission ω ε Unit).outcome = .ok () :=
  rfl

@[simp] theorem emitted_emit (items : List ω) : (emit items : Emission ω ε Unit).emitted = items :=
  rfl

@[simp] theorem outcome_attempt (outcome : Except ε α) :
    (attempt outcome : Emission ω ε α).outcome = outcome := rfl

@[simp] theorem emitted_attempt (outcome : Except ε α) :
    (attempt outcome : Emission ω ε α).emitted = [] := rfl

theorem bind_of_ok {e : Emission ω ε α} {a : α} (h : e.outcome = .ok a)
    (f : α → Emission ω ε β) : e >>= f = ⟨e.emitted ++ (f a).emitted, (f a).outcome⟩ := by
  change Emission.bind e f = _
  rw [Emission.bind, h]

theorem bind_of_error {e : Emission ω ε α} {error : ε} (h : e.outcome = .error error)
    (f : α → Emission ω ε β) : e >>= f = ⟨e.emitted, .error error⟩ := by
  change Emission.bind e f = _
  rw [Emission.bind, h]

theorem outcome_bind (e : Emission ω ε α) (f : α → Emission ω ε β) :
    (e >>= f).outcome = match e.outcome with
      | .error error => .error error
      | .ok a => (f a).outcome := by
  cases h : e.outcome with
  | error error => rw [bind_of_error h]
  | ok a => rw [bind_of_ok h]

theorem bind_eq_ok {e : Emission ω ε α} {f : α → Emission ω ε β} {b : β} :
    (e >>= f).outcome = .ok b ↔ ∃ a, e.outcome = .ok a ∧ (f a).outcome = .ok b := by
  cases h : e.outcome with
  | error error => simp [bind_of_error h]
  | ok a => simp [bind_of_ok h]

theorem eq_of_bind_ok {e : Emission ω ε α} {f : α → Emission ω ε β} {b : β}
    (h : (e >>= f).outcome = .ok b) :
    ∃ a, e.outcome = .ok a ∧ (f a).outcome = .ok b ∧
      (e >>= f).emitted = e.emitted ++ (f a).emitted := by
  obtain ⟨a, ha, hb⟩ := bind_eq_ok.mp h
  exact ⟨a, ha, hb, by rw [bind_of_ok ha]⟩

theorem mem_bind {e : Emission ω ε α} {f : α → Emission ω ε β} {item : ω} :
    item ∈ (e >>= f).emitted ↔
      item ∈ e.emitted ∨ ∃ a, e.outcome = .ok a ∧ item ∈ (f a).emitted := by
  cases h : e.outcome with
  | error error => simp [bind_of_error h]
  | ok a => simp [bind_of_ok h]

theorem outcome_loop (step : σ → α → Emission ω ε (σ × β)) (as : List α) (s : σ) :
    (loop step as s).outcome = Loop.run (fun s a => (step s a).outcome) as s := by
  induction as generalizing s with
  | nil => rfl
  | cons a as ih =>
    rw [loop, Loop.run]
    cases hstep : (step s a).outcome with
    | error error => rw [bind_of_error hstep]
    | ok turn =>
      rw [bind_of_ok hstep]
      dsimp only
      rw [← ih]
      cases hrest : (loop step as turn.1).outcome with
      | error error => rw [bind_of_error hrest]
      | ok rest => rw [bind_of_ok hrest, outcome_pure]

/-- A loop that ends has emitted at each turn what its report tells, where it tells that. -/
theorem emitted_loop {step : σ → α → Emission ω ε (σ × β)} (told : α × β → List ω)
    (hstep : ∀ s a s' b, (step s a).outcome = .ok (s', b) → (step s a).emitted = told (a, b))
    {as : List α} {s t : σ} {log : List (α × β)} (h : (loop step as s).outcome = .ok (t, log)) :
    (loop step as s).emitted = log.flatMap told := by
  induction as generalizing s log with
  | nil =>
    obtain ⟨-, rfl⟩ := Prod.mk.inj (Except.ok.inj h)
    rfl
  | cons a as ih =>
    obtain ⟨⟨s', b⟩, hone, hrest, hemitted⟩ := eq_of_bind_ok h
    obtain ⟨⟨t', log'⟩, hrun, hpure, hemitted'⟩ := eq_of_bind_ok hrest
    obtain ⟨rfl, rfl⟩ := Prod.mk.inj (Except.ok.inj hpure)
    rw [loop, hemitted, hemitted', hstep s a s' b hone, ih hrun, emitted_pure, List.append_nil,
      List.flatMap_cons]

/-- What a loop emits, it emits at the turn of an item, be it the turn at which it fails. -/
theorem mem_loop {step : σ → α → Emission ω ε (σ × β)} {as : List α} {s : σ} {item : ω} :
    item ∈ (loop step as s).emitted ↔
      ∃ a s', Loop.Turn (fun s a => (step s a).outcome) as s a s' ∧
        item ∈ (step s' a).emitted := by
  induction as generalizing s with
  | nil => simp [loop, Loop.Turn]
  | cons a as ih =>
    have hrest : ∀ turn : σ × β, item ∈ (loop step as turn.1 >>= fun rest =>
        (pure (rest.1, (a, turn.2) :: rest.2) : Emission ω ε (σ × List (α × β)))).emitted ↔
        item ∈ (loop step as turn.1).emitted := by
      intro turn
      rw [mem_bind]
      simp
    rw [loop, mem_bind]
    simp only [hrest]
    constructor
    · rintro (hitem | ⟨turn, hstep, hitem⟩)
      · exact ⟨a, s, ⟨[], as, [], rfl, rfl⟩, hitem⟩
      · obtain ⟨c, s', ⟨before, after, log, rfl, hrun⟩, hemitted⟩ := ih.mp hitem
        refine ⟨c, s', ⟨a :: before, after, (a, turn.2) :: log, rfl, ?_⟩, hemitted⟩
        exact Loop.run_cons_eq_ok.mpr ⟨turn.1, turn.2, log, hstep, hrun, rfl⟩
    · rintro ⟨c, s', ⟨before, after, log, heq, hrun⟩, hitem⟩
      cases before with
      | nil =>
        obtain ⟨rfl, -⟩ := List.cons.inj heq
        obtain ⟨rfl, -⟩ := Prod.mk.inj (Except.ok.inj hrun)
        exact Or.inl hitem
      | cons b before =>
        obtain ⟨rfl, rfl⟩ := List.cons.inj heq
        obtain ⟨s₁, b', log', hone, hrun', -⟩ := Loop.run_cons_eq_ok.mp hrun
        exact Or.inr ⟨(s₁, b'), hone,
          ih.mpr ⟨c, s', ⟨before, after, log', rfl, hrun'⟩, hitem⟩⟩

end Emission
