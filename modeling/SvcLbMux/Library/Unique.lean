import Mathlib.Data.List.Induction
import Mathlib.Data.List.Nodup

namespace Py

variable {α : Type*} [DecidableEq α]

/-- `if a not in seen: seen.add(a); items.append(a)`. -/
def addNew (items : List α) (a : α) : List α := if a ∈ items then items else items ++ [a]

def unique (as : List α) : List α := as.foldl addNew []

theorem unique_concat (as : List α) (a : α) : unique (as ++ [a]) = addNew (unique as) a := by
  rw [unique, List.foldl_append]
  rfl

@[simp] theorem mem_unique (as : List α) (a : α) : a ∈ unique as ↔ a ∈ as := by
  induction as using List.reverseRecOn with
  | nil => exact Iff.rfl
  | append_singleton as b ih =>
    rw [unique_concat, addNew]
    split_ifs with hb
    · rw [ih, List.mem_append, List.mem_singleton, iff_self_or]
      rintro rfl
      exact ih.mp hb
    · rw [List.mem_append, ih, List.mem_append]

theorem pairwise_unique (as : List α) :
    (unique as).Pairwise fun a b => as.idxOf a < as.idxOf b := by
  induction as using List.reverseRecOn with
  | nil => exact List.Pairwise.nil
  | append_singleton as c ih =>
    have hold : (unique as).Pairwise fun a b => (as ++ [c]).idxOf a < (as ++ [c]).idxOf b := by
      refine ih.imp_of_mem fun {a b} ha hb hlt => ?_
      rwa [List.idxOf_append_of_mem ((mem_unique as a).mp ha),
        List.idxOf_append_of_mem ((mem_unique as b).mp hb)]
    rw [unique_concat, addNew]
    split_ifs with hc
    · exact hold
    · refine List.pairwise_append.mpr ⟨hold, List.pairwise_singleton _ _, fun a ha b hb => ?_⟩
      obtain rfl := List.mem_singleton.mp hb
      have hin := (mem_unique as a).mp ha
      rw [List.idxOf_append_of_mem hin,
        List.idxOf_append_of_notMem fun h => hc ((mem_unique as b).mpr h)]
      exact Nat.lt_of_lt_of_le (List.idxOf_lt_length_iff.mpr hin) (Nat.le_add_right _ _)

theorem nodup_unique (as : List α) : (unique as).Nodup :=
  (pairwise_unique as).imp fun {a b} hlt heq => by
    rw [heq] at hlt
    exact Nat.lt_irrefl _ hlt

end Py
