import Mathlib.Computability.RegularExpressions

namespace Regex

open RegularExpression

section Classes

variable {α : Type*}

def anyOf (cs : List α) : RegularExpression α := cs.foldr (fun c r => char c + r) 0

/-- `r?`. -/
def optional (r : RegularExpression α) : RegularExpression α := 1 + r

variable [DecidableEq α]

theorem anyOf_rmatch_iff (cs x : List α) : (anyOf cs).rmatch x ↔ ∃ c ∈ cs, x = [c] := by
  induction cs with
  | nil => simp [anyOf]
  | cons c cs ih =>
    change (char c + anyOf cs).rmatch x ↔ _
    rw [add_rmatch_iff, char_rmatch_iff, ih]
    simp only [List.mem_cons, exists_eq_or_imp]

theorem optional_rmatch_iff (r : RegularExpression α) (x : List α) :
    (optional r).rmatch x ↔ x = [] ∨ r.rmatch x := by
  rw [optional, add_rmatch_iff, one_rmatch_iff]

theorem star_anyOf_rmatch_iff (cs x : List α) :
    (star (anyOf cs)).rmatch x ↔ ∀ c ∈ x, c ∈ cs := by
  rw [star_rmatch_iff]
  constructor
  · rintro ⟨pieces, rfl, hpieces⟩ c hc
    obtain ⟨piece, hpiece, hmem⟩ := List.mem_flatten.mp hc
    obtain ⟨d, hd, rfl⟩ := (anyOf_rmatch_iff cs piece).mp (hpieces piece hpiece).2
    rw [List.mem_singleton.mp hmem]
    exact hd
  · intro h
    refine ⟨x.map fun c => [c], (List.flatMap_singleton' x).symm, fun piece hpiece => ?_⟩
    obtain ⟨c, hc, rfl⟩ := List.mem_map.mp hpiece
    exact ⟨by simp, (anyOf_rmatch_iff cs [c]).mpr ⟨c, h c hc, rfl⟩⟩

end Classes

/-- The characters `lo-hi` of a class. -/
def charRange (lo hi : Char) : List Char :=
  (List.range' lo.toNat (hi.toNat + 1 - lo.toNat)).map Char.ofNat

theorem mem_charRange_iff {lo hi : Char} (hvalid : hi.toNat < 0xd800) (c : Char) :
    c ∈ charRange lo hi ↔ lo ≤ c ∧ c ≤ hi := by
  have hle : ∀ a b : Char, a ≤ b ↔ a.toNat ≤ b.toNat := fun a b => Iff.rfl
  rw [charRange, List.mem_map, hle, hle]
  constructor
  · rintro ⟨k, hk, rfl⟩
    obtain ⟨hlo, hhi⟩ := List.mem_range'_1.mp hk
    have hk' : (Char.ofNat k).toNat = k := by
      rw [Char.ofNat, dif_pos (show k.isValidChar from Or.inl (by omega))]
      rfl
    omega
  · rintro ⟨hlo, hhi⟩
    exact ⟨c.toNat, List.mem_range'_1.mpr ⟨hlo, by omega⟩, Char.ofNat_toNat c⟩

/-- `re.match` for `^r$`: the end is the end of the text, or a newline that ends it. -/
def matchLine (r : RegularExpression Char) (s : String) : Bool :=
  r.rmatch s.toList || (s.toList.getLast? = some '\n' && r.rmatch s.toList.dropLast)

theorem matchLine_iff (r : RegularExpression Char) (s : String) :
    matchLine r s ↔ r.rmatch s.toList ∨ ∃ t, s = t ++ "\n" ∧ r.rmatch t.toList := by
  rw [matchLine, Bool.or_eq_true, Bool.and_eq_true, decide_eq_true_eq]
  refine or_congr_right ?_
  constructor
  · rintro ⟨hlast, hmatch⟩
    refine ⟨String.ofList s.toList.dropLast, ?_, by rwa [String.toList_ofList]⟩
    rw [← String.toList_inj, String.toList_append, String.toList_ofList]
    exact (List.dropLast_append_getLast? '\n' hlast).symm
  · rintro ⟨t, rfl, hmatch⟩
    have hl : (t ++ "\n").toList = t.toList ++ ['\n'] := String.toList_append
    rw [hl, List.getLast?_concat, List.dropLast_concat]
    exact ⟨rfl, hmatch⟩

end Regex
