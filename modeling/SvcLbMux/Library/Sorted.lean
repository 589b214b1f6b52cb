import Mathlib.Data.List.Sort
import Mathlib.Data.Finset.Basic

namespace Py

variable {α β : Type*} [LinearOrder β]

/-- `sorted(as, key=key)`, stable. -/
def sortBy (key : α → β) (as : List α) : List α := as.insertionSort fun a b => key a ≤ key b

theorem perm_sortBy (key : α → β) (as : List α) : (sortBy key as).Perm as :=
  List.perm_insertionSort _ as

@[simp] theorem mem_sortBy (key : α → β) (as : List α) (a : α) : a ∈ sortBy key as ↔ a ∈ as :=
  (perm_sortBy key as).mem_iff

theorem pairwise_sortBy (key : α → β) (as : List α) :
    (sortBy key as).Pairwise fun a b => key a ≤ key b := by
  have htrans : IsTrans α fun a b => key a ≤ key b := ⟨fun _ _ _ => le_trans⟩
  have htotal : Std.Total fun a b : α => key a ≤ key b := ⟨fun a b => le_total (key a) (key b)⟩
  exact List.pairwise_insertionSort _ as

/-- `sorted(as, key=key)` on a set whose elements have different keys: the order in which the set
yields them does not matter. -/
def sortSet (key : α → β) (hkey : Function.Injective key) (as : Finset α) : List α :=
  Quot.liftOn as.val (sortBy key) fun l l' h =>
    (((perm_sortBy key l).trans h).trans (perm_sortBy key l').symm).eq_of_pairwise
      (fun _ _ _ _ hab hba => hkey (le_antisymm hab hba)) (pairwise_sortBy key l)
      (pairwise_sortBy key l')

@[simp] theorem mem_sortSet (key : α → β) (hkey : Function.Injective key) (as : Finset α) (a : α) :
    a ∈ sortSet key hkey as ↔ a ∈ as := by
  obtain ⟨l, hl⟩ := Quot.exists_rep as.val
  rw [← Finset.mem_val, sortSet, ← hl]
  exact mem_sortBy key l a

end Py
