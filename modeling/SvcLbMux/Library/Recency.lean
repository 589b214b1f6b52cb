import Mathlib.Data.List.Induction
import Mathlib.Data.List.Nodup

namespace Recency

variable {α : Type*}

theorem exists_last_of_mem {history : List α} {a : α} (h : a ∈ history) :
    ∃ before after, history = before ++ a :: after ∧ a ∉ after := by
  obtain ⟨after, before, heq, hnot⟩ :=
    List.eq_append_cons_of_mem (List.mem_reverse.mpr h)
  refine ⟨before.reverse, after.reverse, ?_, by simpa using hnot⟩
  have hrev := congrArg List.reverse heq
  simpa using hrev

variable [DecidableEq α] {n : ℕ}

/-- The last `n` distinct items of a history, from the most to the least recent. -/
def recent (n : ℕ) (history : List α) : List α := history.reverse.eraseDups.take n

/-- A list after an item was used: it moves to the front, and the last item may fall off. -/
def touch (n : ℕ) (items : List α) (a : α) : List α := (a :: items.erase a).take n

theorem nodup_eraseDups (l : List α) : l.eraseDups.Nodup := by
  match l with
  | [] => exact List.nodup_nil
  | a :: l =>
    rw [List.eraseDups_cons, List.nodup_cons, List.mem_eraseDups]
    refine ⟨by simp, nodup_eraseDups (l.filter fun b => !b == a)⟩
termination_by l.length
decreasing_by simp [Nat.lt_succ_of_le (List.length_filter_le _ _)]

theorem nodup_recent (n : ℕ) (history : List α) : (recent n history).Nodup :=
  (nodup_eraseDups _).sublist (List.take_sublist _ _)

@[simp] theorem recent_nil (n : ℕ) : recent n ([] : List α) = [] := by simp [recent]

theorem eraseDups_filter (l : List α) (p : α → Bool) :
    (l.filter p).eraseDups = l.eraseDups.filter p := by
  match l with
  | [] => rfl
  | a :: l =>
    have ih := eraseDups_filter (l.filter fun b => !b == a) p
    rw [List.eraseDups_cons]
    by_cases ha : p a = true
    · rw [List.filter_cons_of_pos ha, List.filter_cons_of_pos ha, List.eraseDups_cons, ← ih,
        List.filter_filter, List.filter_filter]
      simp only [Bool.and_comm]
    · rw [List.filter_cons_of_neg ha, List.filter_cons_of_neg ha, ← ih, List.filter_filter]
      congr 1
      refine List.filter_congr fun b _ => ?_
      rcases eq_or_ne b a with rfl | hb
      · simp [ha]
      · simp [hb]
termination_by l.length
decreasing_by simp [Nat.lt_succ_of_le (List.length_filter_le _ _)]

theorem eraseDups_cons_eq (a : α) (l : List α) :
    (a :: l).eraseDups = a :: l.eraseDups.erase a := by
  rw [List.eraseDups_cons, eraseDups_filter, (nodup_eraseDups l).erase_eq_filter]
  rfl

theorem take_erase_take (m : ℕ) (l : List α) (a : α) :
    ((l.take (m + 1)).erase a).take m = (l.erase a).take m := by
  induction l generalizing m with
  | nil => rfl
  | cons b l ih =>
    rw [List.take_succ_cons]
    by_cases hb : b = a
    · rw [hb, List.erase_cons_head, List.erase_cons_head, List.take_take, Nat.min_self]
    · have hbeq : ¬ (b == a) = true := by simpa using hb
      rw [List.erase_cons_tail hbeq, List.erase_cons_tail hbeq]
      cases m with
      | zero => rfl
      | succ m => rw [List.take_succ_cons, List.take_succ_cons, ih]

theorem recent_append_singleton (history : List α) (a : α) :
    recent n (history ++ [a]) = touch n (recent n history) a := by
  rw [recent, List.reverse_append, List.reverse_singleton, List.singleton_append,
    eraseDups_cons_eq, touch, recent]
  cases n with
  | zero => rfl
  | succ m => rw [List.take_succ_cons, List.take_succ_cons, take_erase_take]

theorem length_eraseDups_reverse (l : List α) :
    l.reverse.eraseDups.length = l.eraseDups.length := by
  refine ((List.perm_ext_iff_of_nodup (nodup_eraseDups _) (nodup_eraseDups _)).mpr fun a => ?_).length_eq
  rw [List.mem_eraseDups, List.mem_eraseDups, List.mem_reverse]

theorem eraseDups_reverse_append_cons (before : List α) {a : α} {after : List α} (h : a ∉ after) :
    ∃ rest, (before ++ a :: after).reverse.eraseDups = after.reverse.eraseDups ++ a :: rest := by
  have hremove : (a :: before.reverse).removeAll after.reverse =
      a :: before.reverse.removeAll after.reverse := by
    simp [List.removeAll, h]
  refine ⟨((before.reverse.removeAll after.reverse).filter fun b => !b == a).eraseDups, ?_⟩
  rw [List.reverse_append, List.reverse_cons, List.append_assoc, List.singleton_append,
    List.eraseDups_append, hremove, List.eraseDups_cons]

/-- An item stays in the list until `n` other items have been used. -/
theorem mem_recent_append_cons_iff (before : List α) {a : α} {after : List α} (h : a ∉ after) :
    a ∈ recent n (before ++ a :: after) ↔ after.eraseDups.length < n := by
  obtain ⟨rest, hrest⟩ := eraseDups_reverse_append_cons before h
  have hnot : a ∉ after.reverse.eraseDups := by
    rwa [List.mem_eraseDups, List.mem_reverse]
  rw [recent, hrest, ← length_eraseDups_reverse, List.take_append]
  constructor
  · intro hmem
    rcases List.mem_append.mp hmem with hmem | hmem
    · exact absurd (List.mem_of_mem_take hmem) hnot
    · by_contra hlt
      rw [Nat.sub_eq_zero_of_le (Nat.le_of_not_lt hlt)] at hmem
      exact List.not_mem_nil hmem
  · intro hlt
    obtain ⟨m, hm⟩ := Nat.exists_eq_add_of_lt hlt
    have hsub : n - after.reverse.eraseDups.length = m + 1 := by omega
    rw [hsub, List.take_succ_cons]
    exact List.mem_append_right _ List.mem_cons_self

theorem mem_of_mem_recent {history : List α} {a : α} (h : a ∈ recent n history) : a ∈ history :=
  List.mem_reverse.mp (List.mem_eraseDups.mp (List.mem_of_mem_take h))

/-- The item was used, and since its last use fewer than `n` other items were. -/
def UsedRecently (n : ℕ) (history : List α) (a : α) : Prop :=
  ∃ before after, history = before ++ a :: after ∧ a ∉ after ∧ after.eraseDups.length < n

theorem mem_recent_iff {history : List α} {a : α} :
    a ∈ recent n history ↔ UsedRecently n history a := by
  constructor
  · intro h
    obtain ⟨before, after, rfl, hnot⟩ := exists_last_of_mem (mem_of_mem_recent h)
    exact ⟨before, after, rfl, hnot, (mem_recent_append_cons_iff before hnot).mp h⟩
  · rintro ⟨before, after, rfl, hnot, hlt⟩
    exact (mem_recent_append_cons_iff before hnot).mpr hlt

theorem eraseDups_eq_self {l : List α} (h : l.Nodup) : l.eraseDups = l := by
  induction l with
  | nil => rfl
  | cons a l ih =>
    rw [List.nodup_cons] at h
    rw [eraseDups_cons_eq, ih h.2, List.erase_of_not_mem h.1]

/-! ## Entries with data

An entry is made when its item is not in the list, and refreshed by every later use. -/

section Entries

variable {γ β : Type*} (n : ℕ) (key : γ → α) (keyOf : β → α) (fresh : γ → β)
  (refresh : β → γ → β)

/-- The entry was made by a use of its item that was not in the list, the item has been in the list
since, and all later uses of the item have refreshed the entry. -/
def EntrySince (history : List γ) (e : β) : Prop :=
  ∃ before c after, history = before ++ c :: after ∧ key c = keyOf e ∧
    keyOf e ∉ recent n (before.map key) ∧
    (∀ mid rest, after = mid ++ rest → keyOf e ∈ recent n ((before ++ c :: mid).map key)) ∧
    e = (after.filter fun d => key d = keyOf e).foldl refresh (fresh c)

variable {n key keyOf fresh refresh} {history : List γ}

theorem map_recent_append (history : List γ) (c : γ) :
    recent n ((history ++ [c]).map key) = touch n (recent n (history.map key)) (key c) := by
  rw [List.map_append, List.map_singleton, recent_append_singleton]

theorem mem_recent_since {a : α} {before after : List γ} {c d : γ}
    (h : ∀ mid rest, after = mid ++ rest → a ∈ recent n ((before ++ c :: mid).map key))
    (hnow : a ∈ recent n ((before ++ c :: after ++ [d]).map key)) :
    ∀ mid rest, after ++ [d] = mid ++ rest → a ∈ recent n ((before ++ c :: mid).map key) := by
  intro mid rest heq
  rcases List.eq_nil_or_concat rest with rfl | ⟨rest, d', rfl⟩
  · rw [List.append_nil] at heq
    rwa [← heq, ← List.cons_append, ← List.append_assoc]
  · rw [List.concat_eq_append, ← List.append_assoc] at heq
    obtain ⟨rfl, -⟩ := List.append_inj' heq rfl
    exact h mid rest rfl

theorem entrySince_fresh (hfresh : ∀ c, keyOf (fresh c) = key c) {c : γ}
    (hnew : key c ∉ recent n (history.map key))
    (hnow : key c ∈ recent n ((history ++ [c]).map key)) :
    EntrySince n key keyOf fresh refresh (history ++ [c]) (fresh c) := by
  refine ⟨history, c, [], rfl, (hfresh c).symm, (hfresh c).symm ▸ hnew, ?_, rfl⟩
  intro mid rest heq
  obtain ⟨rfl, rfl⟩ := List.nil_eq_append_iff.mp heq
  exact (hfresh c).symm ▸ hnow

theorem entrySince_refresh (hrefresh : ∀ e c, keyOf (refresh e c) = keyOf e) {e : β} {c : γ}
    (h : EntrySince n key keyOf fresh refresh history e) (hkey : keyOf e = key c)
    (hnow : key c ∈ recent n ((history ++ [c]).map key)) :
    EntrySince n key keyOf fresh refresh (history ++ [c]) (refresh e c) := by
  obtain ⟨before, d, after, rfl, hd, hnew, hmid, he⟩ := h
  rw [← hkey] at hnow
  refine ⟨before, d, after ++ [c], by simp, ?_⟩
  rw [hrefresh]
  refine ⟨hd, hnew, mem_recent_since hmid hnow, ?_⟩
  rw [List.filter_append, List.filter_cons_of_pos (by simp [hkey]), List.foldl_append, ← he]
  rfl

theorem entrySince_other {e : β} {c : γ} (h : EntrySince n key keyOf fresh refresh history e)
    (hkey : key c ≠ keyOf e) (hnow : keyOf e ∈ recent n ((history ++ [c]).map key)) :
    EntrySince n key keyOf fresh refresh (history ++ [c]) e := by
  obtain ⟨before, d, after, rfl, hd, hnew, hmid, he⟩ := h
  refine ⟨before, d, after ++ [c], by simp, hd, hnew, mem_recent_since hmid hnow, ?_⟩
  rw [List.filter_append, List.filter_cons_of_neg (by simp [hkey]), List.filter_nil,
    List.append_nil, ← he]

variable [DecidableEq β]

variable (n key keyOf fresh refresh) in
/-- A use refreshes the entry of its item and moves it to the front, or makes one there. -/
def record (entries : List β) (c : γ) : List β :=
  match entries.find? fun e => keyOf e = key c with
  | some e => (refresh e c :: entries.erase e).take n
  | none => (fresh c :: entries).take n

variable (n key keyOf fresh refresh) in
/-- The entries are those of the last items, each made when its item came into the list. -/
structure Tracks (history : List γ) (entries : List β) : Prop where
  keys : entries.map keyOf = recent n (history.map key)
  since : ∀ e ∈ entries, EntrySince n key keyOf fresh refresh history e

variable {entries : List β}

theorem map_erase_of_nodup (hnodup : (entries.map keyOf).Nodup) {e : β} (he : e ∈ entries) :
    (entries.erase e).map keyOf = (entries.map keyOf).erase (keyOf e) := by
  induction entries with
  | nil => rfl
  | cons f entries ih =>
    rw [List.map_cons, List.nodup_cons] at hnodup
    rcases List.mem_cons.mp he with rfl | he
    · rw [List.erase_cons_head, List.map_cons, List.erase_cons_head]
    · have hkey : keyOf f ≠ keyOf e := fun h => hnodup.1 (h ▸ List.mem_map_of_mem he)
      have hne : f ≠ e := fun h => hkey (congrArg keyOf h)
      rw [List.erase_cons_tail (by simpa using hne), List.map_cons, List.map_cons,
        List.erase_cons_tail (by simpa using hkey), ih hnodup.2 he]

theorem record_cases (n : ℕ) (key : γ → α) (keyOf : β → α) (fresh : γ → β) (refresh : β → γ → β)
    (entries : List β) (c : γ) :
    (∃ e ∈ entries, keyOf e = key c ∧
      record n key keyOf fresh refresh entries c = (refresh e c :: entries.erase e).take n) ∨
    key c ∉ entries.map keyOf ∧
      record n key keyOf fresh refresh entries c = (fresh c :: entries).take n := by
  unfold record
  cases hfind : entries.find? fun e => keyOf e = key c with
  | some e =>
    exact Or.inl ⟨e, List.mem_of_find?_eq_some hfind, by simpa using List.find?_some hfind, rfl⟩
  | none =>
    refine Or.inr ⟨fun hmem => ?_, rfl⟩
    obtain ⟨e, he, hkey⟩ := List.mem_map.mp hmem
    exact absurd hkey (by simpa using List.find?_eq_none.mp hfind e he)

variable (hfresh : ∀ c, keyOf (fresh c) = key c) (hrefresh : ∀ e c, keyOf (refresh e c) = keyOf e)

include hfresh hrefresh

theorem tracks_record (h : Tracks n key keyOf fresh refresh history entries) (c : γ) :
    Tracks n key keyOf fresh refresh (history ++ [c])
      (record n key keyOf fresh refresh entries c) := by
  have hnodup : (entries.map keyOf).Nodup := h.keys ▸ nodup_recent n _
  have hkeys : (record n key keyOf fresh refresh entries c).map keyOf =
      recent n ((history ++ [c]).map key) := by
    rw [map_recent_append, ← h.keys, touch]
    obtain ⟨e, he, hkey, hrecord⟩ | ⟨hnew, hrecord⟩ :=
      record_cases n key keyOf fresh refresh entries c
    · rw [hrecord, List.map_take, List.map_cons, hrefresh, map_erase_of_nodup hnodup he, hkey]
    · rw [hrecord, List.map_take, List.map_cons, hfresh, List.erase_of_not_mem hnew]
  refine ⟨hkeys, fun f hf => ?_⟩
  have hnow : keyOf f ∈ recent n ((history ++ [c]).map key) := hkeys ▸ List.mem_map_of_mem hf
  obtain ⟨e, he, hkey, hrecord⟩ | ⟨hnew, hrecord⟩ :=
    record_cases n key keyOf fresh refresh entries c
  · rw [hrecord] at hf
    rcases List.mem_cons.mp (List.mem_of_mem_take hf) with rfl | hf
    · exact entrySince_refresh hrefresh (h.since e he) hkey (by rwa [hrefresh, hkey] at hnow)
    · -- Another entry has another item.
      refine entrySince_other (h.since f (List.mem_of_mem_erase hf)) ?_ hnow
      have hmem : keyOf f ∈ (entries.map keyOf).erase (keyOf e) :=
        map_erase_of_nodup hnodup he ▸ List.mem_map_of_mem hf
      rw [← hkey]
      exact (hnodup.mem_erase_iff.mp hmem).1.symm
  · rw [hrecord] at hf
    rcases List.mem_cons.mp (List.mem_of_mem_take hf) with rfl | hf
    · exact entrySince_fresh hfresh (h.keys ▸ hnew) (by rwa [hfresh] at hnow)
    · exact entrySince_other (h.since f hf) (fun heq => hnew (heq ▸ List.mem_map_of_mem hf)) hnow

theorem tracks_foldl (history : List γ) :
    Tracks n key keyOf fresh refresh history
      (history.foldl (record n key keyOf fresh refresh) []) := by
  induction history using List.reverseRecOn with
  | nil => exact ⟨by simp, by simp⟩
  | append_singleton history c ih =>
    rw [List.foldl_append]
    exact tracks_record hfresh hrefresh ih c

end Entries

end Recency
