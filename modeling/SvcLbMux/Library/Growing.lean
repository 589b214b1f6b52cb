import Mathlib.Data.Set.Card
import Mathlib.Order.WellFounded

namespace Growing

variable {α : Type*} {G : ℕ → Set α} {bound : Set α}

/-- Sets that grow step by step within a finite set grow no more from some step on. -/
theorem exists_eq (hfinite : bound.Finite) (hsub : ∀ n, G n ⊆ bound)
    (hgrow : ∀ n, G n ⊆ G (n + 1)) : ∃ N, ∀ n, N ≤ n → G n = G N := by
  have hmono : Monotone G := monotone_nat_of_le_succ hgrow
  -- At this step the fewest elements of the bound are missing.
  let missing := fun n => bound.ncard - (G n).ncard
  refine ⟨Function.argmin missing, fun n hn => ?_⟩
  have hleast : bound.ncard - (G (Function.argmin missing)).ncard ≤ bound.ncard - (G n).ncard :=
    Function.argmin_le missing n
  have hcard : (G (Function.argmin missing)).ncard ≤ bound.ncard :=
    Set.ncard_le_ncard (hsub _) hfinite
  have hcard' : (G n).ncard ≤ bound.ncard := Set.ncard_le_ncard (hsub n) hfinite
  refine (Set.eq_of_subset_of_ncard_le (hmono hn) ?_ (hfinite.subset (hsub n))).symm
  omega

theorem exists_eq_from (start : ℕ) (hfinite : bound.Finite) (hsub : ∀ n, start ≤ n → G n ⊆ bound)
    (hgrow : ∀ n, start ≤ n → G n ⊆ G (n + 1)) :
    ∃ N, start ≤ N ∧ ∀ n, N ≤ n → G n = G N := by
  obtain ⟨N, hN⟩ := exists_eq (G := fun n => G (start + n)) hfinite
    (fun n => hsub _ (Nat.le_add_right _ _)) fun n => hgrow _ (Nat.le_add_right _ _)
  refine ⟨start + N, Nat.le_add_right _ _, fun n hn => ?_⟩
  obtain ⟨k, rfl⟩ := Nat.exists_eq_add_of_le (le_trans (Nat.le_add_right _ _) hn)
  exact hN k (by omega)

end Growing
