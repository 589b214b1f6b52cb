import Mathlib.Logic.Function.Basic
import Mathlib.Data.List.Basic

/-- Which parties a value admits, and what a party writes: a value that admits just itself. -/
structure CheckedCell (μ ν δ : Type*) where
  admits : μ → ν → Bool
  stamp : μ → δ → ν
  admits_stamp : ∀ m m' d, admits m (stamp m' d) = true ↔ m = m'

namespace CheckedCell

variable {μ ν δ : Type*}

structure State (μ ν : Type*) where
  cell : Option ν
  /-- What a party has read, if it may write. -/
  seen : μ → Option (Option ν)
  /-- The writes that were carried out, each with the value that it replaced. -/
  writes : List (μ × Option ν)

inductive Event (μ δ : Type*) where
  | read (m : μ)
  | write (m : μ) (data : δ)

def start (cell : Option ν) : State μ ν := ⟨cell, fun _ => none, []⟩

variable (rules : CheckedCell μ ν δ)

def Owned (v : ν) : Prop := ∀ m m', rules.admits m v = true → rules.admits m' v = true → m = m'

/-- One party at most has written, and no write replaced a value that did not admit its writer. -/
structure Exclusive (writes : List (μ × Option ν)) : Prop where
  one : ∀ e ∈ writes, ∀ e' ∈ writes, e.1 = e'.1
  own : ∀ m v, (m, some v) ∈ writes → rules.admits m v = true

/-- A party that had found a value without an owner still finds itself admitted when it writes. -/
def Unraced (s : State μ ν) : Event μ δ → Prop
  | .read _ => True
  | .write m _ => ∀ v, s.seen m = some (some v) → ¬ rules.Owned v →
      ∀ w, s.cell = some w → rules.admits m w = true

/-- What holds as long as no write is raced. -/
structure Consistent (s : State μ ν) : Prop where
  seen : ∀ m v, s.seen m = some (some v) →
    ∃ w, s.cell = some w ∧ (rules.Owned v → rules.Owned w ∧ rules.admits m w = true)
  written : ∀ e ∈ s.writes, ∃ w, s.cell = some w ∧ rules.Owned w ∧ rules.admits e.1 w = true
  own : ∀ m v, (m, some v) ∈ s.writes → rules.admits m v = true

variable {rules} {s : State μ ν}

theorem owned_stamp (m : μ) (data : δ) : rules.Owned (rules.stamp m data) := by
  intro m₁ m₂ h₁ h₂
  rw [rules.admits_stamp] at h₁ h₂
  rw [h₁, h₂]

theorem exclusive_of_consistent (h : rules.Consistent s) : rules.Exclusive s.writes := by
  refine ⟨fun e he e' he' => ?_, h.own⟩
  obtain ⟨w, hw, howned, hadmits⟩ := h.written e he
  obtain ⟨w', hw', -, hadmits'⟩ := h.written e' he'
  obtain rfl := Option.some.inj (hw.symm.trans hw')
  exact howned _ _ hadmits hadmits'

theorem consistent_start (cell : Option ν) : rules.Consistent (start cell) :=
  ⟨fun _ _ h => by simp [start] at h, fun _ h => by simp [start] at h,
    fun _ _ h => by simp [start] at h⟩

/-! ## Runs -/

variable [DecidableEq μ]

variable (rules) in
/-- Nothing is checked at a write but whether the cell is as empty as it was found. -/
def step (s : State μ ν) : Event μ δ → State μ ν
  | .read m =>
    match s.cell with
    | none => { s with seen := Function.update s.seen m (some none) }
    | some v =>
      if rules.admits m v then { s with seen := Function.update s.seen m (some (some v)) }
      else { s with seen := Function.update s.seen m none }
  | .write m data =>
    match s.seen m, s.cell with
    | some none, none =>
      ⟨some (rules.stamp m data), Function.update s.seen m none, s.writes ++ [(m, none)]⟩
    | some (some _), some v =>
      ⟨some (rules.stamp m data), Function.update s.seen m none, s.writes ++ [(m, some v)]⟩
    | _, _ => { s with seen := Function.update s.seen m none }

/-- After one party has seen `r`, a party that has seen a value is that one or saw it before. -/
theorem seen_update {seen : μ → Option (Option ν)} {m m' : μ} {r : Option (Option ν)} {v : ν}
    (h : Function.update seen m r m' = some (some v)) :
    (m' = m ∧ r = some (some v)) ∨ (m' ≠ m ∧ seen m' = some (some v)) := by
  by_cases hm : m' = m
  · subst hm
    exact Or.inl ⟨rfl, by simpa using h⟩
  · exact Or.inr ⟨hm, by simpa [Function.update_of_ne hm] using h⟩

theorem consistent_forget (h : rules.Consistent s) (m : μ) :
    rules.Consistent { s with seen := Function.update s.seen m none } := by
  refine ⟨fun m' v hseen => ?_, h.written, h.own⟩
  obtain ⟨-, hnone⟩ | ⟨-, hseen⟩ := seen_update hseen
  · cases hnone
  · exact h.seen m' v hseen

theorem consistent_read (h : rules.Consistent s) (m : μ) :
    rules.Consistent (rules.step s (.read m)) := by
  unfold step
  dsimp only
  split
  · refine ⟨fun m' v hseen => ?_, h.written, h.own⟩
    obtain ⟨-, hnone⟩ | ⟨-, hseen⟩ := seen_update hseen
    · cases hnone
    · exact h.seen m' v hseen
  · rename_i v hcell
    split_ifs with hadmits
    · refine ⟨fun m' v' hseen => ?_, h.written, h.own⟩
      obtain ⟨rfl, hread⟩ | ⟨-, hseen⟩ := seen_update hseen
      · obtain rfl := Option.some.inj (Option.some.inj hread)
        exact ⟨v, hcell, fun howned => ⟨howned, hadmits⟩⟩
      · exact h.seen m' v' hseen
    · exact consistent_forget h m

theorem consistent_create (h : rules.Consistent s) (m : μ) (data : δ) (hcell : s.cell = none) :
    rules.Consistent ⟨some (rules.stamp m data), Function.update s.seen m none,
      s.writes ++ [(m, none)]⟩ := by
  -- Nobody has written or found a value before.
  have hnone : ∀ m' v, s.seen m' ≠ some (some v) := by
    intro m' v hseen
    obtain ⟨w, hw, -⟩ := h.seen m' v hseen
    rw [hcell] at hw
    cases hw
  have hwrites : s.writes = [] := by
    rw [List.eq_nil_iff_forall_not_mem]
    intro e he
    obtain ⟨w, hw, -⟩ := h.written e he
    rw [hcell] at hw
    cases hw
  refine ⟨fun m' v hseen => ?_, fun e he => ?_, fun m' v hmem => ?_⟩
  · obtain ⟨-, hread⟩ | ⟨-, hseen⟩ := seen_update hseen
    · cases hread
    · exact absurd hseen (hnone m' v)
  · simp only [hwrites, List.nil_append, List.mem_singleton] at he
    subst he
    exact ⟨_, rfl, owned_stamp m data, (rules.admits_stamp _ _ _).mpr rfl⟩
  · simp [hwrites] at hmem

/-- A party writes over a value that admits it: whoever the value belonged to is the writer. -/
theorem consistent_replace (h : rules.Consistent s) (m : μ) (data : δ) {w : ν}
    (hcell : s.cell = some w) (hadmits : rules.admits m w = true) :
    rules.Consistent ⟨some (rules.stamp m data), Function.update s.seen m none,
      s.writes ++ [(m, some w)]⟩ := by
  refine ⟨fun m' v hseen => ?_, fun e he => ?_, fun m' v hmem => ?_⟩
  · obtain ⟨-, hnone⟩ | ⟨hm, hseen⟩ := seen_update hseen
    · cases hnone
    · obtain ⟨w', hw', hother⟩ := h.seen m' v hseen
      obtain rfl := Option.some.inj (hcell.symm.trans hw')
      refine ⟨_, rfl, fun howned => absurd ?_ hm⟩
      exact (hother howned).1 _ _ (hother howned).2 hadmits
  · refine ⟨_, rfl, owned_stamp m data, (rules.admits_stamp _ _ _).mpr ?_⟩
    rcases List.mem_append.mp he with he | he
    · obtain ⟨w', hw', howned, hother⟩ := h.written e he
      obtain rfl := Option.some.inj (hcell.symm.trans hw')
      exact howned _ _ hother hadmits
    · rw [List.mem_singleton.mp he]
  · rcases List.mem_append.mp hmem with hmem | hmem
    · exact h.own m' v hmem
    · simp only [List.mem_singleton, Prod.mk.injEq, Option.some.injEq] at hmem
      obtain ⟨rfl, rfl⟩ := hmem
      exact hadmits

theorem consistent_write (h : rules.Consistent s) (m : μ) (data : δ)
    (hunraced : rules.Unraced s (.write m data)) :
    rules.Consistent (rules.step s (.write m data)) := by
  unfold step
  dsimp only
  split
  · rename_i hseen hcell
    exact consistent_create h m data hcell
  · rename_i v w hseen hcell
    refine consistent_replace h m data hcell ?_
    by_cases howned : rules.Owned v
    · obtain ⟨w', hw', hwriter⟩ := h.seen m v hseen
      obtain rfl := Option.some.inj (hcell.symm.trans hw')
      exact (hwriter howned).2
    · exact hunraced v hseen howned w hcell
  · exact consistent_forget h m

theorem consistent_step (h : rules.Consistent s) (e : Event μ δ) (hunraced : rules.Unraced s e) :
    rules.Consistent (rules.step s e) := by
  cases e with
  | read m => exact consistent_read h m
  | write m data => exact consistent_write h m data hunraced

theorem consistent_run (h : rules.Consistent s) (events : List (Event μ δ))
    (hunraced : ∀ before e after, events = before ++ e :: after →
      rules.Unraced (before.foldl rules.step s) e) :
    rules.Consistent (events.foldl rules.step s) := by
  induction events generalizing s with
  | nil => exact h
  | cons e events ih =>
    refine ih (consistent_step h e (hunraced [] e events rfl)) fun before f after hsplit => ?_
    exact hunraced (e :: before) f after (by rw [hsplit]; rfl)

/-! ## What was written stays in the record -/

theorem writes_subset_step (s : State μ ν) (e : Event μ δ) :
    s.writes ⊆ (rules.step s e).writes := by
  cases e with
  | read m =>
    unfold step
    dsimp only
    split
    · exact List.Subset.refl _
    · split_ifs <;> exact List.Subset.refl _
  | write m data =>
    unfold step
    dsimp only
    split
    · exact List.subset_append_left _ _
    · exact List.subset_append_left _ _
    · exact List.Subset.refl _

theorem writes_subset_run (s : State μ ν) (events : List (Event μ δ)) :
    s.writes ⊆ (events.foldl rules.step s).writes := by
  induction events generalizing s with
  | nil => exact List.Subset.refl _
  | cons e events ih => exact List.Subset.trans (writes_subset_step s e) (ih _)

/-- Who has found a value writes over whatever is there. -/
theorem mem_writes_step {m : μ} {v w : ν} (hseen : s.seen m = some (some v))
    (hcell : s.cell = some w) (data : δ) :
    (m, some w) ∈ (rules.step s (.write m data)).writes := by
  simp [step, hseen, hcell]

/-- The writes of a run are exclusive exactly when none of them is raced. -/
theorem exclusive_iff_unraced (cell : Option ν) (events : List (Event μ δ)) :
    rules.Exclusive (events.foldl rules.step (start cell)).writes ↔
      ∀ before e after, events = before ++ e :: after →
        rules.Unraced (before.foldl rules.step (start cell)) e := by
  constructor
  · rintro h before e after rfl
    cases e with
    | read m => trivial
    | write m data =>
      intro v hseen _ w hcell
      refine h.own m w ?_
      rw [List.foldl_append, List.foldl_cons]
      exact writes_subset_run _ after (mem_writes_step hseen hcell data)
  · exact fun h => exclusive_of_consistent (consistent_run (consistent_start cell) events h)

/-- Every value that is in the cell, or that a party has found there, has an owner. -/
structure AllOwned (s : State μ ν) : Prop where
  cell : ∀ v, s.cell = some v → rules.Owned v
  seen : ∀ m v, s.seen m = some (some v) → rules.Owned v

theorem AllOwned.seen_update (h : rules.AllOwned s) (m : μ) {r : Option (Option ν)}
    (hr : ∀ v, r = some (some v) → rules.Owned v) :
    ∀ m' v, Function.update s.seen m r m' = some (some v) → rules.Owned v := by
  intro m' v hseen
  obtain ⟨-, hread⟩ | ⟨-, hseen⟩ := CheckedCell.seen_update hseen
  · exact hr v hread
  · exact h.seen m' v hseen

theorem allOwned_step (h : rules.AllOwned s) (e : Event μ δ) : rules.AllOwned (rules.step s e) := by
  cases e with
  | read m =>
    unfold step
    dsimp only
    split
    · exact ⟨h.cell, h.seen_update m (by simp)⟩
    · rename_i v hcell
      split_ifs
      · refine ⟨h.cell, h.seen_update m fun w hw => ?_⟩
        obtain rfl := Option.some.inj (Option.some.inj hw)
        exact h.cell v hcell
      · exact ⟨h.cell, h.seen_update m (by simp)⟩
  | write m data =>
    have hstamp : ∀ v, some (rules.stamp m data) = some v → rules.Owned v :=
      fun v hv => Option.some.inj hv ▸ owned_stamp m data
    unfold step
    dsimp only
    split
    · exact ⟨hstamp, h.seen_update m (by simp)⟩
    · exact ⟨hstamp, h.seen_update m (by simp)⟩
    · exact ⟨h.cell, h.seen_update m (by simp)⟩

theorem allOwned_run (h : rules.AllOwned s) (events : List (Event μ δ)) :
    rules.AllOwned (events.foldl rules.step s) := by
  induction events generalizing s with
  | nil => exact h
  | cons e events ih => exact ih (allOwned_step h e)

theorem unraced_of_owned {cell : Option ν} (hcell : ∀ v, cell = some v → rules.Owned v)
    (events : List (Event μ δ)) (e : Event μ δ) :
    rules.Unraced (events.foldl rules.step (start cell)) e := by
  have hstart : rules.AllOwned (start cell) := ⟨hcell, fun _ _ h => by simp [start] at h⟩
  have hall := allOwned_run hstart events
  cases e with
  | read m => trivial
  | write m data => exact fun v hseen hfree => absurd (hall.seen m v hseen) hfree

end CheckedCell
