import SvcLbMux.Library.Dict

namespace Mailbox

open Py

/-- A mailbox outlives its entry in the registry, and its number is never used again. -/
structure Mailboxes (κ μ : Type*) [DecidableEq κ] where
  registry : Dict κ ℕ
  contents : ℕ → List μ
  created : ℕ

namespace Mailboxes

variable {κ μ : Type*} [DecidableEq κ]

def empty : Mailboxes κ μ := ⟨Dict.empty, fun _ => [], 0⟩

/-- The mailbox of the key, a new one if the key has none. -/
def setDefault (m : Mailboxes κ μ) (k : κ) : Mailboxes κ μ × ℕ :=
  match m.registry.get k with
  | some q => (m, q)
  | none => ({ m with registry := m.registry.set k m.created, created := m.created + 1 }, m.created)

def pop (m : Mailboxes κ μ) (k : κ) : Mailboxes κ μ := { m with registry := m.registry.erase k }

def put (m : Mailboxes κ μ) (q : ℕ) (a : μ) : Mailboxes κ μ :=
  { m with contents := Function.update m.contents q (m.contents q ++ [a]) }

/-- The oldest message of a mailbox, and the mailboxes without it. -/
def get (m : Mailboxes κ μ) (q : ℕ) : Option (μ × Mailboxes κ μ) :=
  match m.contents q with
  | [] => none
  | a :: as => some (a, { m with contents := Function.update m.contents q as })

variable {m m' : Mailboxes κ μ} {k j : κ} {q : ℕ}

/-! ## The registry -/

theorem setDefault_of_some (h : m.registry.get k = some q) : m.setDefault k = (m, q) := by
  rw [setDefault, h]

theorem setDefault_of_none (h : m.registry.get k = none) : m.setDefault k =
    ({ m with registry := m.registry.set k m.created, created := m.created + 1 }, m.created) := by
  rw [setDefault, h]

theorem registry_setDefault_self : (m.setDefault k).1.registry.get k = some (m.setDefault k).2 := by
  cases h : m.registry.get k with
  | some q => rw [setDefault_of_some h, h]
  | none =>
    rw [setDefault_of_none h]
    exact Dict.get_set_self _ _ _

theorem contents_setDefault : (m.setDefault k).1.contents = m.contents := by
  cases h : m.registry.get k with
  | some q => rw [setDefault_of_some h]
  | none => rw [setDefault_of_none h]

theorem registry_setDefault_of_some (h : m.registry.get k = some q) :
    (m.setDefault j).1.registry.get k = some q := by
  cases hj : m.registry.get j with
  | some q' => rwa [setDefault_of_some hj]
  | none =>
    rw [setDefault_of_none hj]
    have hne : j ≠ k := by
      rintro rfl
      rw [h] at hj
      cases hj
    exact (Dict.get_set_ne _ hne _).trans h

theorem registry_pop_of_ne (h : j ≠ k) : (m.pop j).registry.get k = m.registry.get k :=
  (Dict.get_erase _ _ _).trans (if_neg h)

theorem registry_pop_self : (m.pop k).registry.get k = none :=
  (Dict.get_erase _ _ _).trans (if_pos rfl)

/-! ## Changes -/

/-- One operation. Only some keys may be taken out of the registry. -/
inductive Change (m : Mailboxes κ μ) (popped : κ → Prop) : Mailboxes κ μ → Prop
  | same : Change m popped m
  | setDefault (k : κ) : Change m popped (m.setDefault k).1
  | pop {k : κ} (h : popped k) : Change m popped (m.pop k)
  | put (q : ℕ) (a : μ) : Change m popped (m.put q a)
  | get {q : ℕ} {taken : μ × Mailboxes κ μ} (h : m.get q = some taken) : Change m popped taken.2

variable {popped : κ → Prop}

theorem get_eq_some {taken : μ × Mailboxes κ μ} (h : m.get q = some taken) :
    taken.2.registry = m.registry ∧ taken.2.created = m.created ∧
      ∀ q', q' ≠ q → taken.2.contents q' = m.contents q' := by
  unfold get at h
  cases hq : m.contents q with
  | nil => simp [hq] at h
  | cons a as =>
    simp only [hq, Option.some.injEq] at h
    rw [← h]
    exact ⟨rfl, rfl, fun q' hne => Function.update_of_ne hne ..⟩

theorem registered_change (hchange : m.Change popped m') (hk : ¬ popped k)
    (h : m.registry.get k = some q) : m'.registry.get k = some q := by
  cases hchange with
  | same => exact h
  | setDefault j => exact registry_setDefault_of_some h
  | @pop j hj =>
    have hne : j ≠ k := fun heq => hk (heq ▸ hj)
    rwa [registry_pop_of_ne hne]
  | put q' a => exact h
  | get hget => rwa [(get_eq_some hget).1]

/-- The mailbox exists, and it is not the one of the key. -/
structure Unregistered (m : Mailboxes κ μ) (k : κ) (q : ℕ) : Prop where
  lt : q < m.created
  ne : m.registry.get k ≠ some q

theorem unregistered_pop_self (h : q < m.created) : (m.pop k).Unregistered k q :=
  ⟨h, by rw [registry_pop_self]; simp⟩

theorem unregistered_change (hchange : m.Change popped m') (h : m.Unregistered k q) :
    m'.Unregistered k q := by
  cases hchange with
  | same => exact h
  | setDefault j =>
    cases hj : m.registry.get j with
    | some q' => rwa [setDefault_of_some hj]
    | none =>
      rw [setDefault_of_none hj]
      refine ⟨Nat.lt_succ_of_lt h.lt, fun hk => ?_⟩
      dsimp only at hk
      rw [Dict.get_set] at hk
      split_ifs at hk
      · -- Under the key there is now a new mailbox.
        exact absurd (Option.some.inj hk) (Nat.ne_of_gt h.lt)
      · exact h.ne hk
  | @pop j hj =>
    by_cases hjk : j = k
    · exact hjk ▸ unregistered_pop_self h.lt
    · exact ⟨h.lt, by rw [registry_pop_of_ne hjk]; exact h.ne⟩
  | put q' a => exact ⟨h.lt, h.ne⟩
  | get hget =>
    obtain ⟨hregistry, hcreated, -⟩ := get_eq_some hget
    exact ⟨hcreated ▸ h.lt, hregistry ▸ h.ne⟩

def Created (m : Mailboxes κ μ) : Prop := ∀ k q, m.registry.get k = some q → q < m.created

theorem created_empty : (empty : Mailboxes κ μ).Created := fun _ _ h => nomatch h

theorem created_le_change (hchange : m.Change popped m') : m.created ≤ m'.created := by
  cases hchange with
  | setDefault j =>
    cases hj : m.registry.get j with
    | some q' => exact Nat.le_of_eq (by rw [setDefault_of_some hj])
    | none =>
      have hcreated : (m.setDefault j).1.created = m.created + 1 := by rw [setDefault_of_none hj]
      omega
  | get hget => exact Nat.le_of_eq (get_eq_some hget).2.1.symm
  | _ => exact Nat.le_refl _

theorem created_change (hchange : m.Change popped m') (h : m.Created) : m'.Created := by
  cases hchange with
  | same => exact h
  | setDefault j =>
    cases hj : m.registry.get j with
    | some q' => rwa [setDefault_of_some hj]
    | none =>
      rw [setDefault_of_none hj]
      intro k q hq
      dsimp only at hq
      rw [Dict.get_set] at hq
      split_ifs at hq
      · rw [← Option.some.inj hq]
        exact Nat.lt_succ_self _
      · exact Nat.lt_succ_of_lt (h k q hq)
  | @pop j hj =>
    intro k q hq
    by_cases hjk : j = k
    · rw [hjk, registry_pop_self] at hq
      cases hq
    · rw [registry_pop_of_ne hjk] at hq
      exact h k q hq
  | put q' a => exact h
  | get hget =>
    obtain ⟨hregistry, hcreated, -⟩ := get_eq_some hget
    intro k q hq
    rw [hregistry] at hq
    exact hcreated ▸ h k q hq

theorem lt_created_of_setDefault (h : m.Created) : (m.setDefault k).2 < (m.setDefault k).1.created :=
  created_change (.setDefault k : m.Change (fun _ => False) _) h k _ registry_setDefault_self

/-! ## Contents -/

theorem contents_put_self (a : μ) : (m.put q a).contents q = m.contents q ++ [a] :=
  Function.update_self ..

theorem contents_put_ne_nil (a : μ) (h : m.contents q ≠ []) (q' : ℕ) :
    (m.put q' a).contents q ≠ [] := by
  by_cases hq : q = q'
  · subst hq
    rw [contents_put_self]
    simp
  · rwa [show (m.put q' a).contents q = m.contents q from Function.update_of_ne hq ..]

end Mailboxes

end Mailbox
