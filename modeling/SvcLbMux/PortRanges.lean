import SvcLbMux.PortAllocations

namespace SvcLbMux

open Py

/-! ## One range -/

def formatRange (r : Int × Int) : String :=
  if r.1 ≠ r.2 then str r.1 ++ "-" ++ str r.2 else str r.1

structure PortRange (r : Int × Int) : Prop where
  lo : 1 ≤ r.1
  le : r.1 ≤ r.2
  hi : r.2 ≤ 65535

variable {r : Int × Int}

theorem toList_formatRange (r : Int × Int) : (formatRange r).toList =
    (str r.1).toList ++ if r.1 ≠ r.2 then '-' :: (str r.2).toList else [] := by
  unfold formatRange
  split_ifs
  · simp [String.toList_append]
  · simp

theorem digit_or_dash_of_mem_formatRange (hr : PortRange r) {c : Char}
    (h : c ∈ (formatRange r).toList) : c.isDigit = true ∨ c = '-' := by
  have hlo : 0 ≤ r.1 := by linarith [hr.lo]
  have hhi : 0 ≤ r.2 := hlo.trans hr.le
  rw [toList_formatRange] at h
  split_ifs at h
  · rcases List.mem_append.mp h with h | h
    · exact Or.inl (isDigit_of_mem_str_int hlo h)
    · rcases List.mem_cons.mp h with h | h
      · exact Or.inr h
      · exact Or.inl (isDigit_of_mem_str_int hhi h)
  · rw [List.append_nil] at h
    exact Or.inl (isDigit_of_mem_str_int hlo h)

theorem strip_formatRange (hr : PortRange r) : strip (formatRange r) = formatRange r := by
  refine strip_eq_self fun c hc => ?_
  rcases digit_or_dash_of_mem_formatRange hr hc with hdigit | rfl
  · exact isSpace_of_isDigit hdigit
  · decide

theorem comma_notMem_formatRange (hr : PortRange r) : ',' ∉ (formatRange r).toList := by
  intro hmem
  rcases digit_or_dash_of_mem_formatRange hr hmem with h | h
  · exact absurd h (by decide)
  · exact absurd h (by decide)

theorem strip_str_int {n : Int} (hn : 0 ≤ n) : strip (str n) = str n := by
  obtain ⟨k, rfl⟩ := Int.eq_ofNat_of_zero_le hn
  exact strip_str k

theorem formatRange_ne_empty (hr : PortRange r) : formatRange r ≠ "" := by
  intro h
  have hl := congrArg String.toList h
  rw [toList_formatRange] at hl
  obtain ⟨k, hk⟩ := Int.eq_ofNat_of_zero_le (by linarith [hr.lo] : 0 ≤ r.1)
  have hempty := (List.append_eq_nil_iff.mp hl).1
  rw [hk] at hempty
  exact str_toList_ne_nil k hempty

theorem cut_formatRange (hr : PortRange r) :
    (cut (formatRange r) "-").getD (formatRange r, formatRange r) = (str r.1, str r.2) := by
  have hdash : '-' ∉ (str r.1).toList :=
    notMem_str (by linarith [hr.lo]) (by decide)
  rw [cut, toList_formatRange]
  split_ifs with hne
  · simp [cutChars_singleton hdash]
  · rw [List.append_nil]
    have hnone : cutChars "-".toList (str r.1).toList = none := cutChars_eq_none hdash
    rw [hnone, Option.map_none, Option.getD_none, formatRange, if_neg hne, not_not.mp hne]

theorem parsePortRange_format (cfg : Config) (ranges : List (Int × Int)) (hr : PortRange r) :
    parsePortRange cfg ranges (formatRange r) = .ok (ranges ++ [r]) := by
  have hlo : 1 ≤ r.1 ∧ r.1 ≤ 65535 := ⟨hr.lo, hr.le.trans hr.hi⟩
  have hhi : 1 ≤ r.2 ∧ r.2 ≤ 65535 := ⟨hr.lo.trans hr.le, hr.hi⟩
  unfold parsePortRange
  simp only [strip_formatRange hr, if_neg (formatRange_ne_empty hr), cut_formatRange hr,
    strip_str_int (by omega : 0 ≤ r.1), strip_str_int (by omega : 0 ≤ r.2),
    validatePortText_str _ hlo, validatePortText_str _ hhi, if_neg (not_lt.mpr hr.le)]

/-! ## Lists of ranges -/

theorem portRange_of_parsePortRange {cfg : Config} {ranges ranges' : List (Int × Int)} {item : String}
    (hranges : ∀ r ∈ ranges, PortRange r) (h : parsePortRange cfg ranges item = .ok ranges') :
    ∀ r ∈ ranges', PortRange r := by
  unfold parsePortRange at h
  dsimp only at h
  split at h
  · exact Except.ok.inj h ▸ hranges
  split at h
  · cases h
  rename_i first hfirst
  split at h
  · cases h
  rename_i last hlast
  split_ifs at h with hle
  obtain rfl := Except.ok.inj h
  intro r hr
  rcases List.mem_append.mp hr with hr | hr
  · exact hranges r hr
  · obtain rfl := List.mem_singleton.mp hr
    exact ⟨(validatePortText_eq_ok.mp hfirst).2.1, not_lt.mp hle,
      (validatePortText_eq_ok.mp hlast).2.2⟩

theorem portRanges_of_parse {cfg : Config} {value : String} {ranges : List (Int × Int)}
    (h : parsePortRanges cfg value = .ok ranges) : ∀ r ∈ ranges, PortRange r := by
  unfold parsePortRanges at h
  split_ifs at h
  · obtain rfl := Except.ok.inj h
    simp
  · exact Loop.foldlM_invariant (fun rs : List (Int × Int) => ∀ r ∈ rs, PortRange r) (by simp)
      (fun _ _ _ hrs hstep => portRange_of_parsePortRange hrs hstep) h

theorem foldlM_parsePortRange_format (cfg : Config) {ranges : List (Int × Int)}
    (h : ∀ r ∈ ranges, PortRange r) (start : List (Int × Int)) :
    (ranges.map formatRange).foldlM (parsePortRange cfg) start = .ok (start ++ ranges) := by
  induction ranges generalizing start with
  | nil =>
    rw [List.append_nil]
    rfl
  | cons r ranges ih =>
    obtain ⟨hr, hrest⟩ := List.forall_mem_cons.mp h
    rw [List.map_cons, List.foldlM_cons, parsePortRange_format cfg start hr]
    exact (ih hrest _).trans (by simp)

theorem parsePortRanges_format (cfg : Config) {ranges : List (Int × Int)}
    (h : ∀ r ∈ ranges, PortRange r) : parsePortRanges cfg (formatRanges ranges) = .ok ranges := by
  rcases eq_or_ne ranges [] with rfl | hne
  · rfl
  have hitems : ∀ s ∈ ranges.map formatRange, ',' ∉ s.toList := by
    simp only [List.forall_mem_map]
    exact fun r hr => comma_notMem_formatRange (h r hr)
  have hsplit : split (formatRanges ranges) ',' = ranges.map formatRange :=
    split_intercalate (by simpa using hne) hitems
  have hnonempty : formatRanges ranges ≠ "" := by
    intro hempty
    rw [hempty] at hsplit
    obtain ⟨r, ranges', rfl⟩ := List.exists_cons_of_ne_nil hne
    have hfirst : "" = formatRange r := (List.cons.inj hsplit).1
    exact formatRange_ne_empty (h r List.mem_cons_self) hfirst.symm
  rw [parsePortRanges, if_neg hnonempty, hsplit]
  exact foldlM_parsePortRange_format cfg h []

/-- The lists of ranges that a mux can ask for are those of port numbers. Each has a text of its own,
which reads back as the list. -/
theorem port_ranges_round_trip (cfg : Config) :
    (∀ ranges, List.TFAE [∃ value, parsePortRanges cfg value = .ok ranges,
      ∀ r ∈ ranges, 1 ≤ r.1 ∧ r.1 ≤ r.2 ∧ r.2 ≤ 65535,
      parsePortRanges cfg (formatRanges ranges) = .ok ranges]) ∧
    ∀ value value' ranges ranges', parsePortRanges cfg value = .ok ranges →
      parsePortRanges cfg value' = .ok ranges' →
      (formatRanges ranges = formatRanges ranges' ↔ ranges = ranges') := by
  have hread : ∀ value ranges, parsePortRanges cfg value = .ok ranges →
      parsePortRanges cfg (formatRanges ranges) = .ok ranges := fun value ranges h =>
    parsePortRanges_format cfg (portRanges_of_parse h)
  refine ⟨fun ranges => ?_, fun value value' ranges ranges' h h' => ⟨fun htext => ?_, congrArg _⟩⟩
  · tfae_have 1 → 2 := by
      rintro ⟨value, h⟩ r hr
      obtain ⟨hlo, hle, hhi⟩ := portRanges_of_parse h r hr
      exact ⟨hlo, hle, hhi⟩
    tfae_have 2 → 3 := fun h => parsePortRanges_format cfg fun r hr =>
      ⟨(h r hr).1, (h r hr).2.1, (h r hr).2.2⟩
    tfae_have 3 → 1 := fun h => ⟨_, h⟩
    tfae_finish
  · have hsame := hread value ranges h
    rw [htext, hread value' ranges' h'] at hsame
    exact (Except.ok.inj hsame).symm

end SvcLbMux
