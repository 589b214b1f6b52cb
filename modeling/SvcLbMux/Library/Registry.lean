import Mathlib.Data.Set.Basic
import SvcLbMux.Library.Dict

/-- Who owns which resource, with one owner at most for each. -/
structure Registry (κ ω : Type*) where
  holds : Set (κ × ω)
  functional : ∀ ⦃k o o'⦄, (k, o) ∈ holds → (k, o') ∈ holds → o = o'

namespace Registry

variable {κ ω : Type*}

@[ext] theorem ext {r r' : Registry κ ω} (h : r.holds = r'.holds) : r = r' := by
  cases r
  cases r'
  congr

/-- A batch of requests that contradicts neither the registry nor itself. -/
def Compatible (r : Registry κ ω) (batch : Set (κ × ω)) : Prop :=
  ∀ ⦃k o o'⦄, (k, o) ∈ r.holds ∪ batch → (k, o') ∈ r.holds ∪ batch → o = o'

open Classical in
/-- A batch is granted as a whole, and only when the registry stays a registry with it. -/
noncomputable def offer (r : Registry κ ω) (batch : Set (κ × ω)) : Registry κ ω :=
  if h : r.Compatible batch then ⟨r.holds ∪ batch, h⟩ else r

theorem compatible_iff (r : Registry κ ω) (batch : Set (κ × ω)) :
    r.Compatible batch ↔
      (∀ ⦃k o o'⦄, (k, o) ∈ r.holds → (k, o') ∈ batch → o = o') ∧
        ∀ ⦃k o o'⦄, (k, o) ∈ batch → (k, o') ∈ batch → o = o' := by
  constructor
  · intro h
    exact ⟨fun k o o' hr hb => h (Or.inl hr) (Or.inr hb),
      fun k o o' hb hb' => h (Or.inr hb) (Or.inr hb')⟩
  · rintro ⟨hrb, hbb⟩ k o o' (h | h) (h' | h')
    · exact r.functional h h'
    · exact hrb h h'
    · exact (hrb h' h).symm
    · exact hbb h h'

theorem offer_of_compatible {r : Registry κ ω} {batch : Set (κ × ω)} (h : r.Compatible batch) :
    (r.offer batch).holds = r.holds ∪ batch := by
  rw [offer, dif_pos h]

theorem offer_of_not_compatible {r : Registry κ ω} {batch : Set (κ × ω)}
    (h : ¬ r.Compatible batch) : r.offer batch = r := by
  rw [offer, dif_neg h]

theorem holds_subset_offer (r : Registry κ ω) (batch : Set (κ × ω)) :
    r.holds ⊆ (r.offer batch).holds := by
  by_cases h : r.Compatible batch
  · rw [offer_of_compatible h]
    exact Set.subset_union_left
  · rw [offer_of_not_compatible h]

theorem not_compatible_of_foreign {r : Registry κ ω} {batch : Set (κ × ω)} {k : κ} {o o' : ω}
    (hr : (k, o) ∈ r.holds) (hb : (k, o') ∈ batch) (hne : o ≠ o') : ¬ r.Compatible batch :=
  fun h => hne (h (Or.inl hr) (Or.inr hb))

def ofDict [DecidableEq κ] (d : Py.Dict κ ω) : Registry κ ω where
  holds := {e | d.get e.1 = some e.2}
  functional _ _ _ h h' := Option.some.inj (h.symm.trans h')

@[simp] theorem mem_ofDict [DecidableEq κ] (d : Py.Dict κ ω) (k : κ) (o : ω) :
    (k, o) ∈ (ofDict d).holds ↔ d.get k = some o := Iff.rfl

end Registry
