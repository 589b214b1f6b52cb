import Mathlib.Data.List.Forall2

namespace Simulation

variable {ι ο ο' σ τ : Type*}

/-- The answers to calls, one after the other, each with the state after it. -/
def trace (call : ι → σ → ο × σ) : List ι → σ → List (ο × σ)
  | [], _ => []
  | i :: is, s => call i s :: trace call is (call i s).2

theorem traces_simulate {call : ι → σ → ο × σ} {call' : ι → τ → ο' × τ} (R : σ → τ → Prop)
    (Alike : ο → ο' → Prop)
    (hcall : ∀ i s t, R s t → Alike (call i s).1 (call' i t).1 ∧ R (call i s).2 (call' i t).2)
    (calls : List ι) {s : σ} {t : τ} (h : R s t) :
    List.Forall₂ (fun a b => Alike a.1 b.1 ∧ R a.2 b.2) (trace call calls s)
      (trace call' calls t) := by
  induction calls generalizing s t with
  | nil => exact .nil
  | cons i is ih => exact .cons (hcall i s t h) (ih (hcall i s t h).2)

end Simulation
