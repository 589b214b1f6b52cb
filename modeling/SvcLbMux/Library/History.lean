import Mathlib.Data.List.Induction

namespace History

variable {σ ε β : Type*}

/-- `occurs` held at some event of the run, and `holds` at every later event, each in the state in
which the event was taken. -/
def Since (step : σ → ε → σ) (s : σ) (events : List ε) (occurs holds : σ → ε → Prop) : Prop :=
  ∃ before e after, events = before ++ e :: after ∧ occurs (before.foldl step s) e ∧
    ∀ mid f rest, after = mid ++ f :: rest → holds ((before ++ e :: mid).foldl step s) f

variable {step : σ → ε → σ} {s : σ} {occurs holds : σ → ε → Prop}

theorem not_since_nil : ¬ Since step s [] occurs holds := by
  rintro ⟨before, e, after, h, -⟩
  simp at h

/-- One more event: it is what has to occur, or what has to hold since. -/
theorem since_append_singleton (events : List ε) (e : ε) :
    Since step s (events ++ [e]) occurs holds ↔
      occurs (events.foldl step s) e ∨
        holds (events.foldl step s) e ∧ Since step s events occurs holds := by
  constructor
  · rintro ⟨before, f, after, heq, hoccurs, hholds⟩
    -- Either it is the event that occurs, or it comes after that one.
    rcases List.eq_nil_or_concat after with rfl | ⟨after, g, rfl⟩
    · obtain ⟨rfl, hlast⟩ := List.append_inj' heq rfl
      obtain rfl := List.singleton_inj.mp hlast
      exact Or.inl hoccurs
    · rw [List.concat_eq_append, ← List.cons_append, ← List.append_assoc] at heq
      obtain ⟨rfl, hlast⟩ := List.append_inj' heq rfl
      obtain rfl := List.singleton_inj.mp hlast
      refine Or.inr ⟨hholds after e [] (List.concat_eq_append ..), before, f, after, rfl, hoccurs, ?_⟩
      intro mid g rest hmid
      exact hholds mid g (rest ++ [e]) (by simp [hmid])
  · rintro (hoccurs | ⟨hhold, before, f, after, rfl, hoccurs, hholds⟩)
    · exact ⟨events, e, [], rfl, hoccurs, fun mid f rest h => by simp at h⟩
    · refine ⟨before, f, after ++ [e], by simp, hoccurs, ?_⟩
      intro mid g rest hmid
      rcases List.eq_nil_or_concat rest with rfl | ⟨rest, g', rfl⟩
      · obtain ⟨rfl, hlast⟩ := List.append_inj' hmid rfl
        obtain rfl := List.singleton_inj.mp hlast
        exact hhold
      · rw [List.concat_eq_append, ← List.cons_append, ← List.append_assoc] at hmid
        obtain ⟨rfl, -⟩ := List.append_inj' hmid rfl
        exact hholds mid g rest rfl

/-- An invariant that what occurred has established rules out what it rules out in every state. -/
theorem since_of_invariant (I : σ → Prop) {before after : List ε} {e : ε}
    (hoccurs : occurs (before.foldl step s) e) (hinit : I (step (before.foldl step s) e))
    (hstep : ∀ s e, I s → I (step s e)) (hholds : ∀ s e, I s → holds s e) :
    Since step s (before ++ e :: after) occurs holds := by
  refine ⟨before, e, after, rfl, hoccurs, fun mid f rest _ => hholds _ f ?_⟩
  rw [List.foldl_append, List.foldl_cons]
  exact List.foldlRecOn mid step hinit fun s hs e _ => hstep s e hs

/-! ## A cell that the events write

An event leaves the cell alone (`none`), clears it (`some none`) or stores a value in it. -/

variable (cell : List ε → Option β) {write : σ → ε → Option (Option β)}

/-- The value of the cell was stored by some event, and since then no event wrote anything else. -/
theorem cell_eq_some_iff (hnil : cell [] = none)
    (hstep : ∀ events e, cell (events ++ [e]) = (write (events.foldl step s) e).getD (cell events))
    (events : List ε) (b : β) :
    cell events = some b ↔
      Since step s events (fun s e => write s e = some (some b))
        (fun s e => ∀ w, write s e = some w → w = some b) := by
  induction events using List.reverseRecOn with
  | nil => simp [hnil, not_since_nil]
  | append_singleton events e ih =>
    rw [hstep, since_append_singleton, ← ih]
    cases write (events.foldl step s) e with
    | none => simp
    | some w => cases w <;> simp_all

/-- The cell holds a value when some event stored one, and since then no event cleared it. -/
theorem cell_ne_none_iff (hnil : cell [] = none)
    (hstep : ∀ events e, cell (events ++ [e]) = (write (events.foldl step s) e).getD (cell events))
    (events : List ε) :
    cell events ≠ none ↔
      Since step s events (fun s e => ∃ b, write s e = some (some b))
        (fun s e => write s e ≠ some none) := by
  induction events using List.reverseRecOn with
  | nil => simp [hnil, not_since_nil]
  | append_singleton events e ih =>
    rw [hstep, since_append_singleton, ← ih]
    cases write (events.foldl step s) e with
    | none => simp
    | some w => cases w <;> simp

/-! ## A cell whose value an event can drop

Whether an event drops the value may depend on the value, and not on anything else. -/

variable {cell} {set : ε → Option β} {drops : ε → β → Prop}

/-- The value of the cell is the last one that was stored, and no event has dropped it since. -/
theorem cell_eq_some_iff_last (hnil : cell [] = none)
    (hstep : ∀ events e b, cell (events ++ [e]) = some b ↔
      set e = some b ∨ set e = none ∧ ¬ drops e b ∧ cell events = some b)
    (events : List ε) (b : β) :
    cell events = some b ↔
      ∃ before e after, events = before ++ e :: after ∧ set e = some b ∧
        ∀ f ∈ after, set f = none ∧ ¬ drops f b := by
  induction events using List.reverseRecOn with
  | nil => simp [hnil]
  | append_singleton events e ih =>
    rw [hstep, ih]
    constructor
    · rintro (hset | ⟨hnone, hkept, before, f, after, rfl, hset, hafter⟩)
      · exact ⟨events, e, [], rfl, hset, fun f hf => nomatch hf⟩
      · refine ⟨before, f, after ++ [e], by simp, hset, fun g hg => ?_⟩
        rcases List.mem_append.mp hg with hg | hg
        · exact hafter g hg
        · obtain rfl := List.mem_singleton.mp hg
          exact ⟨hnone, hkept⟩
    · rintro ⟨before, f, after, heq, hset, hafter⟩
      rcases List.eq_nil_or_concat after with rfl | ⟨after, g, rfl⟩
      · obtain ⟨-, hlast⟩ := List.append_inj' heq rfl
        obtain rfl := List.singleton_inj.mp hlast
        exact Or.inl hset
      · rw [List.concat_eq_append, ← List.cons_append, ← List.append_assoc] at heq
        obtain ⟨rfl, hlast⟩ := List.append_inj' heq rfl
        obtain rfl := List.singleton_inj.mp hlast
        obtain ⟨hnone, hkept⟩ := hafter e (by simp)
        exact Or.inr ⟨hnone, hkept, before, f, after, rfl, hset,
          fun g hg => hafter g (by simp [hg])⟩

end History
