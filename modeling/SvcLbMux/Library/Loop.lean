import Mathlib.Data.List.Basic

namespace Loop

variable {α β σ ε : Type*}

instance decidableExistsOk {outcome : Except ε α} {P : α → Prop} [DecidablePred P] :
    Decidable (∃ a, outcome = .ok a ∧ P a) :=
  match outcome with
  | .error _ => isFalse (by simp)
  | .ok a => decidable_of_iff (P a) (by simp)

/-- The `for` loop over a list, whose body updates a state and leaves a report for the item that it
handled. The first failure of the body ends the loop. -/
def run (step : σ → α → Except ε (σ × β)) : List α → σ → Except ε (σ × List (α × β))
  | [], s => .ok (s, [])
  | a :: as, s =>
    match step s a with
    | .error e => .error e
    | .ok (s', b) =>
      match run step as s' with
      | .error e => .error e
      | .ok (t, log) => .ok (t, (a, b) :: log)

/-- The loop over `as` from `s` meets the item `a` in the state `s'`. -/
def Turn (step : σ → α → Except ε (σ × β)) (as : List α) (s : σ) (a : α) (s' : σ) : Prop :=
  ∃ before after log, as = before ++ a :: after ∧ run step before s = .ok (s', log)

variable {step : σ → α → Except ε (σ × β)}

theorem run_cons_eq_ok {a : α} {as : List α} {s t : σ} {log : List (α × β)} :
    run step (a :: as) s = .ok (t, log) ↔
      ∃ s' b log', step s a = .ok (s', b) ∧ run step as s' = .ok (t, log') ∧
        log = (a, b) :: log' := by
  constructor
  · intro h
    -- A loop that ends has failed neither at its first item nor after it.
    change (match step s a with | .error _ => _ | .ok (_, _) => _) = _ at h
    split at h
    · exact nomatch h
    next s' b hstep =>
      change (match run step as s' with | .error _ => _ | .ok (_, _) => _) = _ at h
      split at h
      · exact nomatch h
      next t' log' hrun =>
        obtain ⟨rfl, rfl⟩ := Prod.mk.inj (Except.ok.inj h)
        exact ⟨s', b, log', hstep, hrun, rfl⟩
  · rintro ⟨s', b, log', hstep, hrun, rfl⟩
    rw [run, hstep]
    change (match run step as s' with | .error _ => _ | .ok (_, _) => _) = _
    rw [hrun]

theorem run_append_eq_ok {as bs : List α} {s t : σ} {log : List (α × β)} :
    run step (as ++ bs) s = .ok (t, log) ↔
      ∃ s' log₁ log₂, run step as s = .ok (s', log₁) ∧ run step bs s' = .ok (t, log₂) ∧
        log = log₁ ++ log₂ := by
  induction as generalizing s log with
  | nil => simp [run]
  | cons a as ih =>
    simp only [List.cons_append, run_cons_eq_ok, ih]
    constructor
    · rintro ⟨s₁, b, log', hstep, ⟨s₂, log₁, log₂, h₁, h₂, rfl⟩, rfl⟩
      exact ⟨s₂, (a, b) :: log₁, log₂, ⟨s₁, b, log₁, hstep, h₁, rfl⟩, h₂, rfl⟩
    · rintro ⟨s₂, log₁, log₂, ⟨s₁, b, log', hstep, h₁, rfl⟩, h₂, rfl⟩
      exact ⟨s₁, b, log' ++ log₂, hstep, ⟨s₂, log', log₂, h₁, h₂, rfl⟩, rfl⟩

theorem map_fst_run {as : List α} {s t : σ} {log : List (α × β)}
    (h : run step as s = .ok (t, log)) : log.map Prod.fst = as := by
  induction as generalizing s log with
  | nil =>
    obtain ⟨-, rfl⟩ := Prod.mk.inj (Except.ok.inj h)
    rfl
  | cons a as ih =>
    obtain ⟨s', b, log', -, hrun, rfl⟩ := run_cons_eq_ok.mp h
    rw [List.map_cons, ih hrun]

/-- The invariant rule, for an invariant that also speaks about the reports so far. An item comes
after those that are reported. -/
theorem run_log_invariant (P : List (α × β) → σ → Prop) {as : List α} {s t : σ}
    {log : List (α × β)} (hs : P [] s)
    (hstep : ∀ log s a s' b, log.map Prod.fst ++ [a] <+: as → P log s →
      step s a = .ok (s', b) → P (log ++ [(a, b)]) s')
    (h : run step as s = .ok (t, log)) : P log t := by
  have hfrom : ∀ (done log : List (α × β)) (as' : List α) (s : σ),
      done.map Prod.fst ++ as' = as → P done s →
      run step as' s = .ok (t, log) → P (done ++ log) t := by
    intro done log as'
    induction as' generalizing done log with
    | nil =>
      intro s _ hP hrun
      obtain ⟨rfl, rfl⟩ := Prod.mk.inj (Except.ok.inj hrun)
      simpa using hP
    | cons a as' ih =>
      intro s hsplit hP hrun
      obtain ⟨s', b, log', hone, hrun', rfl⟩ := run_cons_eq_ok.mp hrun
      have hP' := hstep done s a s' b ⟨as', by simpa using hsplit⟩ hP hone
      simpa using ih (done ++ [(a, b)]) log' s' (by simpa using hsplit) hP' hrun'
  exact hfrom [] log as s rfl hs h

/-- The invariant rule: what the body preserves on the items of the list, the loop preserves. -/
theorem run_invariant (P : σ → Prop) {as : List α} {s t : σ} {log : List (α × β)} (hs : P s)
    (hstep : ∀ s a s' b, a ∈ as → P s → step s a = .ok (s', b) → P s')
    (h : run step as s = .ok (t, log)) : P t :=
  run_log_invariant (fun _ => P) hs
    (fun _ s a s' b hhead hP hone => hstep s a s' b (hhead.subset (by simp)) hP hone) h

theorem exists_turn {as : List α} {s t : σ} {log : List (α × β)}
    (h : run step as s = .ok (t, log)) {a : α} (ha : a ∈ as) :
    ∃ s' s'' b, Turn step as s a s' ∧ step s' a = .ok (s'', b) ∧ (a, b) ∈ log := by
  obtain ⟨before, after, rfl⟩ := List.append_of_mem ha
  obtain ⟨s', log₁, log₂, h₁, h₂, rfl⟩ := run_append_eq_ok.mp h
  obtain ⟨s'', b, log', hone, -, rfl⟩ := run_cons_eq_ok.mp h₂
  exact ⟨s', s'', b, ⟨before, after, log₁, rfl, h₁⟩, hone, by simp⟩

theorem exists_step_of_turn {as : List α} {s t : σ} {log : List (α × β)}
    (h : run step as s = .ok (t, log)) {a : α} {s' : σ} (hturn : Turn step as s a s') :
    ∃ s'' b, step s' a = .ok (s'', b) ∧ (a, b) ∈ log := by
  obtain ⟨before, after, log', rfl, hbefore⟩ := hturn
  obtain ⟨s₁, log₁, log₂, h₁, h₂, rfl⟩ := run_append_eq_ok.mp h
  rw [hbefore, Except.ok.injEq, Prod.mk.injEq] at h₁
  obtain ⟨rfl, rfl⟩ := h₁
  obtain ⟨s'', b, log₃, hone, -, rfl⟩ := run_cons_eq_ok.mp h₂
  exact ⟨s'', b, hone, by simp⟩

/-- A report of a loop that ends was left at a turn, after the reports before it. -/
theorem exists_step_of_log {as : List α} {s t : σ} {before after : List (α × β)} {a : α} {b : β}
    (h : run step as s = .ok (t, before ++ (a, b) :: after)) :
    ∃ rest s' s'', as = before.map Prod.fst ++ a :: rest ∧
      run step (before.map Prod.fst) s = .ok (s', before) ∧ step s' a = .ok (s'', b) := by
  induction before generalizing as s with
  | nil =>
    cases as with
    | nil => simp [run] at h
    | cons a' as =>
      obtain ⟨s', b', log, hone, -, heq⟩ := run_cons_eq_ok.mp h
      simp only [List.nil_append, List.cons.injEq, Prod.mk.injEq] at heq
      obtain ⟨⟨rfl, rfl⟩, -⟩ := heq
      exact ⟨as, s, s', rfl, rfl, hone⟩
  | cons e before ih =>
    cases as with
    | nil => simp [run] at h
    | cons a' as =>
      obtain ⟨s₁, b', log, hone, hrun, heq⟩ := run_cons_eq_ok.mp h
      obtain ⟨rfl, rfl⟩ := List.cons.inj heq
      obtain ⟨rest, s', s'', rfl, hbefore, hstep⟩ := ih hrun
      exact ⟨rest, s', s'', rfl, run_cons_eq_ok.mpr ⟨s₁, b', before, hone, hbefore, rfl⟩, hstep⟩

/-- What only the turn of one item can change is before that turn as at the start, and at the end as
after it. -/
theorem turn_frame {γ : Type*} (f : σ → γ) {as : List α} {s t s' : σ} {log : List (α × β)} {c : α}
    (hnodup : as.Nodup)
    (hframe : ∀ s a s' b, a ∈ as → a ≠ c → step s a = .ok (s', b) → f s' = f s)
    (hrun : run step as s = .ok (t, log)) (hturn : Turn step as s c s') :
    ∃ s'' b, step s' c = .ok (s'', b) ∧ (c, b) ∈ log ∧ f s' = f s ∧ f t = f s'' := by
  obtain ⟨before, after, log', rfl, hbefore⟩ := hturn
  have hbeforeNe : ∀ a ∈ before, a ≠ c := by
    rintro a ha rfl
    exact (List.nodup_append.mp hnodup).2.2 a ha a (by simp) rfl
  have hafterNe : ∀ a ∈ after, a ≠ c := by
    rintro a ha rfl
    exact (List.nodup_cons.mp (List.nodup_append.mp hnodup).2.1).1 ha
  obtain ⟨s₁, log₁, log₂, h₁, h₂, rfl⟩ := run_append_eq_ok.mp hrun
  rw [hbefore, Except.ok.injEq, Prod.mk.injEq] at h₁
  obtain ⟨rfl, rfl⟩ := h₁
  obtain ⟨s'', b, log₃, hone, hafter, rfl⟩ := run_cons_eq_ok.mp h₂
  refine ⟨s'', b, hone, by simp, ?_, ?_⟩
  · exact run_invariant (fun u => f u = f s) rfl
      (fun u a u' b' ha hu h => (hframe u a u' b' (by simp [ha]) (hbeforeNe a ha) h).trans hu) hbefore
  · exact run_invariant (fun u => f u = f s'') rfl
      (fun u a u' b' ha hu h => (hframe u a u' b' (by simp [ha]) (hafterNe a ha) h).trans hu) hafter

/-- A loop does not fail when its body, under an invariant, does not fail on its items. -/
theorem run_ok (P : σ → Prop) {as : List α}
    (hstep : ∀ s, ∀ a ∈ as, P s → ∃ s' b, step s a = .ok (s', b) ∧ P s') {s : σ} (hs : P s) :
    ∃ t log, run step as s = .ok (t, log) := by
  induction as generalizing s with
  | nil => exact ⟨s, [], rfl⟩
  | cons a as ih =>
    obtain ⟨s', b, hone, hs'⟩ := hstep s a (by simp) hs
    obtain ⟨t, log, hrun⟩ := ih (fun s c hc => hstep s c (List.mem_cons_of_mem _ hc)) hs'
    exact ⟨t, (a, b) :: log, run_cons_eq_ok.mpr ⟨s', b, log, hone, hrun, rfl⟩⟩

theorem run_report_invariant (P : σ → Prop) {as : List α} {s t : σ} {log : List (α × β)} (hs : P s)
    (hstep : ∀ s a s' b, (a, b) ∈ log → P s → step s a = .ok (s', b) → P s')
    (h : run step as s = .ok (t, log)) : P t := by
  induction as generalizing s log with
  | nil =>
    obtain ⟨rfl, rfl⟩ := Prod.mk.inj (Except.ok.inj h)
    exact hs
  | cons a as ih =>
    obtain ⟨s', b, log', hone, hrun, rfl⟩ := run_cons_eq_ok.mp h
    exact ih (hstep s a s' b (by simp) hs hone)
      (fun s c s' d hmem => hstep s c s' d (List.mem_cons_of_mem _ hmem)) hrun

/-- A loop simulates another one on the image of its state, with the image of its reports, when each
turn does: under an invariant, and on what the loop reports. -/
theorem run_simulates {τ γ : Type*} {step' : τ → α → Except ε (τ × γ)} (f : σ → τ) (g : β → γ)
    (P : σ → Prop) {as : List α} {s t : σ} {log : List (α × β)} (hs : P s)
    (hstep : ∀ s a s' b, (a, b) ∈ log → P s → step s a = .ok (s', b) →
      P s' ∧ step' (f s) a = .ok (f s', g b))
    (h : run step as s = .ok (t, log)) :
    run step' as (f s) = .ok (f t, log.map fun e => (e.1, g e.2)) := by
  induction as generalizing s log with
  | nil =>
    obtain ⟨rfl, rfl⟩ := Prod.mk.inj (Except.ok.inj h)
    rfl
  | cons a as ih =>
    obtain ⟨s', b, log', hone, hrun, rfl⟩ := run_cons_eq_ok.mp h
    obtain ⟨hs', himage⟩ := hstep s a s' b (by simp) hs hone
    have hrest := ih hs' (fun s c s' d hmem => hstep s c s' d (List.mem_cons_of_mem _ hmem)) hrun
    exact run_cons_eq_ok.mpr ⟨f s', g b, _, himage, hrest, rfl⟩

theorem run_image {τ : Type*} {step' : τ → α → Except ε (τ × β)} (f : σ → τ)
    (himage : ∀ s a s' b, step s a = .ok (s', b) → step' (f s) a = .ok (f s', b))
    {as : List α} {s t : σ} {log : List (α × β)} (h : run step as s = .ok (t, log)) :
    run step' as (f s) = .ok (f t, log) := by
  have hsame : run step' as (f s) = .ok (f t, log.map fun e => (e.1, id e.2)) :=
    run_simulates f id (fun _ => True) trivial
      (fun s a s' b _ _ hone => ⟨trivial, himage s a s' b hone⟩) h
  simpa using hsame

/-- The converse, where the body over the larger state does not fail on what is reported. -/
theorem run_lift {τ : Type*} {step' : τ → α → Except ε (τ × β)} (f : σ → τ) {as : List α}
    {s : σ} {t' : τ} {log : List (α × β)} (h : run step' as (f s) = .ok (t', log))
    (hlift : ∀ s a t' b, (a, b) ∈ log → step' (f s) a = .ok (t', b) →
      ∃ s', step s a = .ok (s', b) ∧ f s' = t') :
    ∃ t, run step as s = .ok (t, log) ∧ f t = t' := by
  induction as generalizing s log with
  | nil =>
    obtain ⟨rfl, rfl⟩ := Prod.mk.inj (Except.ok.inj h)
    exact ⟨s, rfl, rfl⟩
  | cons a as ih =>
    obtain ⟨u', b, log', hone, hrun, rfl⟩ := run_cons_eq_ok.mp h
    obtain ⟨s', hstep, rfl⟩ := hlift s a u' b (by simp) hone
    obtain ⟨t, ht, hft⟩ := ih hrun fun s c t' d hmem => hlift s c t' d (List.mem_cons_of_mem _ hmem)
    exact ⟨t, run_cons_eq_ok.mpr ⟨s', b, log', hstep, ht, rfl⟩, hft⟩

theorem foldlM_cons_eq_ok {f : σ → α → Except ε σ} {a : α} {as : List α} {s s' : σ} :
    (a :: as).foldlM f s = .ok s' ↔ ∃ t, f s a = .ok t ∧ as.foldlM f t = .ok s' := by
  rw [List.foldlM_cons]
  cases hf : f s a with
  | error e => simp [bind, Except.bind]
  | ok t => simp [bind, Except.bind]

theorem foldlM_invariant {f : σ → α → Except ε σ} (P : σ → Prop) {as : List α}
    {s s' : σ} (hs : P s) (hstep : ∀ s a s', P s → f s a = .ok s' → P s')
    (h : as.foldlM f s = .ok s') : P s' := by
  induction as generalizing s with
  | nil =>
    obtain rfl := Except.ok.inj h
    exact hs
  | cons a as ih =>
    obtain ⟨t, hf, hrest⟩ := foldlM_cons_eq_ok.mp h
    exact ih (hstep s a t hs hf) hrest

/-- A loop whose body only adds has added at the end what the body adds for some item. -/
theorem foldl_adds {κ : Type*} {f : σ → α → σ} (holds : σ → κ → Prop) (adds : α → κ → Prop)
    (as : List α) (hf : ∀ s, ∀ a ∈ as, ∀ k, holds (f s a) k ↔ holds s k ∨ adds a k) (s : σ) (k : κ) :
    holds (as.foldl f s) k ↔ holds s k ∨ ∃ a ∈ as, adds a k := by
  induction as generalizing s with
  | nil => simp
  | cons a as ih =>
    rw [List.foldl_cons, ih (fun s b hb => hf s b (List.mem_cons_of_mem _ hb)), hf s a (by simp)]
    simp only [List.mem_cons, exists_eq_or_imp, or_assoc]

/-- A part of the state that only some items change goes through the loop over those. -/
theorem foldl_component {γ : Type*} {f : σ → α → σ} (part : σ → γ) (g : γ → α → γ) (keep : α → Bool)
    (hkeep : ∀ s a, keep a = true → part (f s a) = g (part s) a)
    (hframe : ∀ s a, keep a = false → part (f s a) = part s) (as : List α) (s : σ) :
    part (as.foldl f s) = (as.filter keep).foldl g (part s) := by
  induction as generalizing s with
  | nil => rfl
  | cons a as ih =>
    rw [List.foldl_cons, ih]
    cases hk : keep a with
    | true => rw [List.filter_cons_of_pos hk, List.foldl_cons, hkeep s a hk]
    | false => rw [List.filter_cons_of_neg (by simp [hk]), hframe s a hk]

theorem foldlM_adds {κ : Type*} {f : σ → α → Except ε σ} (holds : σ → κ → Prop)
    (adds : α → κ → Prop)
    (hf : ∀ s a s', f s a = .ok s' → ∀ k, holds s' k ↔ holds s k ∨ adds a k) {as : List α}
    {s s' : σ} (h : as.foldlM f s = .ok s') (k : κ) :
    holds s' k ↔ holds s k ∨ ∃ a ∈ as, adds a k := by
  induction as generalizing s with
  | nil =>
    obtain rfl := Except.ok.inj h
    simp
  | cons a as ih =>
    obtain ⟨t, hone, hrest⟩ := foldlM_cons_eq_ok.mp h
    rw [ih hrest, hf s a t hone]
    simp only [List.mem_cons, exists_eq_or_imp, or_assoc]

theorem foldlM_ok {f : σ → α → Except ε σ} {as : List α}
    (hf : ∀ s, ∀ a ∈ as, ∃ s', f s a = .ok s') (s : σ) : ∃ s', as.foldlM f s = .ok s' := by
  induction as generalizing s with
  | nil => exact ⟨s, rfl⟩
  | cons a as ih =>
    obtain ⟨t, ht⟩ := hf s a (by simp)
    obtain ⟨s', hs'⟩ := ih (fun s b hb => hf s b (List.mem_cons_of_mem _ hb)) t
    exact ⟨s', foldlM_cons_eq_ok.mpr ⟨t, ht, hs'⟩⟩

theorem exists_ok_of_foldlM {f : σ → α → Except ε σ} {as : List α} {s t : σ}
    (h : as.foldlM f s = .ok t) {a : α} (ha : a ∈ as) : ∃ s' s'', f s' a = .ok s'' := by
  induction as generalizing s with
  | nil => simp at ha
  | cons b as ih =>
    obtain ⟨s', hf, hrest⟩ := foldlM_cons_eq_ok.mp h
    rcases List.mem_cons.mp ha with rfl | ha
    · exact ⟨s, s', hf⟩
    · exact ih hrest ha

theorem foldlM_ok_iff {f : σ → α → Except ε σ} (good : α → Prop)
    (hf : ∀ s a, (∃ s', f s a = .ok s') ↔ good a) {as : List α} (s : σ) :
    (∃ t, as.foldlM f s = .ok t) ↔ ∀ a ∈ as, good a := by
  constructor
  · rintro ⟨t, h⟩ a ha
    obtain ⟨s', s'', hs⟩ := exists_ok_of_foldlM h ha
    exact (hf s' a).mp ⟨s'', hs⟩
  · intro h
    exact foldlM_ok (fun s a ha => (hf s a).mpr (h a ha)) s

theorem mapM_ok_iff {f : α → Except ε β} {as : List α} :
    (∃ bs, as.mapM f = .ok bs) ↔ ∀ a ∈ as, ∃ b, f a = .ok b := by
  induction as with
  | nil => simp [pure, Except.pure]
  | cons a as ih =>
    rw [List.mapM_cons, List.forall_mem_cons, ← ih]
    cases f a with
    | error e => simp [bind, Except.bind]
    | ok b =>
      cases as.mapM f with
      | error e => simp [bind, Except.bind]
      | ok bs => simp [bind, Except.bind, pure, Except.pure]

theorem mapM_congr {f g : α → Except ε β} {as : List α} (h : ∀ a ∈ as, f a = g a) :
    as.mapM f = as.mapM g := by
  induction as with
  | nil => rfl
  | cons a as ih =>
    rw [List.mapM_cons, List.mapM_cons, h a (by simp), ih fun b hb => h b (List.mem_cons_of_mem _ hb)]

theorem mem_of_mapM {f : α → Except ε β} {as : List α} {bs : List β} (h : as.mapM f = .ok bs)
    (b : β) : b ∈ bs ↔ ∃ a ∈ as, f a = .ok b := by
  induction as generalizing bs with
  | nil =>
    obtain rfl := Except.ok.inj h
    simp
  | cons a as ih =>
    rw [List.mapM_cons] at h
    cases hf : f a with
    | error e => simp [hf, bind, Except.bind] at h
    | ok c =>
      cases hrest : as.mapM f with
      | error e => simp [hf, hrest, bind, Except.bind] at h
      | ok cs =>
        simp only [hf, hrest, bind, Except.bind, pure, Except.pure, Except.ok.injEq] at h
        subst h
        simp [ih hrest, hf, eq_comm]

/-! ## Items with those before them -/

section InTurn

variable {γ : Type*}

/-- Each item of the list is in relation to the items before it. -/
def InTurn (P : List α → α → Prop) (as : List α) : Prop :=
  ∀ before a after, as = before ++ a :: after → P before a

theorem inTurn_nil (P : List α → α → Prop) : InTurn P [] := fun _ _ _ h => by simp at h

theorem inTurn_append {P : List α → α → Prop} {as bs : List α} :
    InTurn P (as ++ bs) ↔ InTurn P as ∧ InTurn (fun before => P (as ++ before)) bs := by
  constructor
  · intro h
    refine ⟨fun before a after hsplit => ?_, fun before b after hsplit => ?_⟩
    · exact h before a (after ++ bs) (by simp [hsplit])
    · exact h (as ++ before) b after (by simp [hsplit])
  · rintro ⟨has, hbs⟩ before a after hsplit
    rcases List.append_eq_append_iff.mp hsplit with ⟨front, rfl, hrest⟩ | ⟨rest, rfl, hrest⟩
    · exact hbs front a after hrest
    · cases rest with
      | nil => simpa using hbs [] a after (by simpa using hrest.symm)
      | cons b rest =>
        obtain ⟨rfl, -⟩ := List.cons.inj hrest
        exact has before a rest rfl

theorem inTurn_singleton {P : List α → α → Prop} {a : α} : InTurn P [a] ↔ P [] a := by
  constructor
  · exact fun h => h [] a [] rfl
  · intro h before b after hsplit
    rcases List.cons_eq_append_iff.mp hsplit with ⟨rfl, hb⟩ | ⟨front, -, hrest⟩
    · obtain ⟨rfl, -⟩ := List.cons.inj hb
      exact h
    · simp at hrest

theorem inTurn_cons {P : List α → α → Prop} {a : α} {as : List α} :
    InTurn P (a :: as) ↔ P [] a ∧ InTurn (fun before => P (a :: before)) as := by
  rw [← List.singleton_append, inTurn_append, inTurn_singleton]
  rfl

theorem inTurn_flatMap {P : List γ → γ → Prop} {as : List α} {f : α → List γ} :
    InTurn P (as.flatMap f) ↔
      InTurn (fun before a => InTurn (fun inside => P (before.flatMap f ++ inside)) (f a)) as := by
  induction as generalizing P with
  | nil => exact iff_of_true (inTurn_nil _) (inTurn_nil _)
  | cons a as ih =>
    rw [List.flatMap_cons, inTurn_append, inTurn_cons, ih]
    simp

/-- A loop leaves a given log exactly when each turn of it, coming after the turns of the log before
it, leaves the report of the log. -/
theorem run_eq_log_iff (I : List (α × β) → σ → Prop) (P : List (α × β) → α × β → Prop)
    {expected log : List (α × β)} {s t : σ} (hs : I [] s)
    (hstep : ∀ done a b rest s s' b', expected = done ++ (a, b) :: rest → I done s →
      step s a = .ok (s', b') → (b' = b ↔ P done (a, b)) ∧ (b' = b → I (done ++ [(a, b)]) s'))
    (h : run step (expected.map Prod.fst) s = .ok (t, log)) :
    log = expected ↔ InTurn P expected := by
  have hfrom : ∀ rest done log s, expected = done ++ rest → I done s →
      run step (rest.map Prod.fst) s = .ok (t, log) →
      (log = rest ↔ InTurn (fun before => P (done ++ before)) rest) := by
    intro rest
    induction rest with
    | nil =>
      intro done log s _ _ hrun
      obtain ⟨-, rfl⟩ := Prod.mk.inj (Except.ok.inj hrun)
      exact iff_of_true rfl (inTurn_nil _)
    | cons e rest ih =>
      obtain ⟨a, b⟩ := e
      intro done log s hsplit hI hrun
      obtain ⟨s', b', log', hone, hrun', rfl⟩ := run_cons_eq_ok.mp hrun
      obtain ⟨hreport, hnext⟩ := hstep done a b rest s s' b' hsplit hI hone
      rw [inTurn_cons, List.append_nil, ← hreport]
      constructor
      · intro heq
        simp only [List.cons.injEq, Prod.mk.injEq, true_and] at heq
        obtain ⟨rfl, rfl⟩ := heq
        refine ⟨rfl, ?_⟩
        have hrest := ih (done ++ [(a, b')]) log' s' (by simpa using hsplit) (hnext rfl) hrun'
        simpa using hrest.mp rfl
      · rintro ⟨rfl, hturn⟩
        have hrest := ih (done ++ [(a, b')]) log' s' (by simpa using hsplit) (hnext rfl) hrun'
        rw [hrest.mpr (by simpa using hturn)]
  exact hfrom expected [] log s rfl hs h

end InTurn

end Loop
