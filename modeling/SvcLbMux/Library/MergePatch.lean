import SvcLbMux.Library.Dict

namespace Py.Dict

variable {κ α : Type*} [DecidableEq κ]

/-- A key is set, or deleted where the value is `none`. -/
def write (d : Dict κ α) (w : κ × Option α) : Dict κ α :=
  match w.2 with
  | some v => d.set w.1 v
  | none => d.erase w.1

def writes (d : Dict κ α) (ws : List (κ × Option α)) : Dict κ α := ws.foldl write d

/-- A JSON merge patch: other keys are not touched. -/
def mergePatch (d : Dict κ α) (patch : Dict κ (Option α)) : Dict κ α := d.writes patch.entries

/-- The patch that is meant to turn `current` into `desired`: all of `desired`, and `none` for what
is to go. -/
def patchTo (current desired : Dict κ α) : Dict κ (Option α) :=
  (ofList (desired.entries.map fun e => (e.1, some e.2))).updateList
    ((current.keys.filter (· ∉ desired.keys)).map fun k => (k, none))

theorem get_write (d : Dict κ α) (w : κ × Option α) (k : κ) :
    (d.write w).get k = if w.1 = k then w.2 else d.get k := by
  obtain ⟨j, v⟩ := w
  cases v with
  | none => exact get_erase d j k
  | some v => exact get_set d j k v

theorem filterKeys_write_of_kept {d : Dict κ α} {p : κ → Bool} {w : κ × Option α}
    (hp : p w.1 = true) : (d.write w).filterKeys p = (d.filterKeys p).write w := by
  obtain ⟨j, v⟩ := w
  cases v with
  | none => exact filterKeys_erase
  | some v => exact filterKeys_set_of_kept hp v

theorem filterKeys_write_of_dropped {d : Dict κ α} {p : κ → Bool} {w : κ × Option α}
    (hp : p w.1 = false) : (d.write w).filterKeys p = d.filterKeys p := by
  obtain ⟨j, v⟩ := w
  cases v with
  | none => exact filterKeys_erase_of_dropped hp
  | some v => exact filterKeys_set_of_dropped hp v

theorem get_writes_of_notMem (d : Dict κ α) (ws : List (κ × Option α)) {k : κ}
    (h : k ∉ ws.map Prod.fst) : (d.writes ws).get k = d.get k := by
  induction ws generalizing d with
  | nil => rfl
  | cons w rest ih =>
    simp only [List.map_cons, List.mem_cons, not_or] at h
    change ((d.write w).writes rest).get k = d.get k
    rw [ih _ h.2, get_write, if_neg (Ne.symm h.1)]

theorem get_writes_of_nodup (d : Dict κ α) (ws : List (κ × Option α))
    (hnd : (ws.map Prod.fst).Nodup) {k : κ} {v : Option α} (h : (k, v) ∈ ws) :
    (d.writes ws).get k = v := by
  induction ws generalizing d with
  | nil => simp at h
  | cons w rest ih =>
    simp only [List.map_cons, List.nodup_cons] at hnd
    change ((d.write w).writes rest).get k = v
    rcases List.mem_cons.mp h with rfl | hr
    · rw [get_writes_of_notMem _ _ hnd.1, get_write, if_pos rfl]
    · exact ih _ hnd.2 hr

theorem get_mergePatch (d : Dict κ α) (patch : Dict κ (Option α)) (k : κ) :
    (d.mergePatch patch).get k = (patch.get k).getD (d.get k) := by
  cases hget : patch.get k with
  | none => exact get_writes_of_notMem d patch.entries ((get_eq_none_iff patch k).mp hget)
  | some v =>
    exact get_writes_of_nodup d patch.entries patch.nodup ((get_eq_some_iff patch k v).mp hget)

theorem get_patchTo (current desired : Dict κ α) (k : κ) :
    (patchTo current desired).get k =
      if k ∈ current.keys ∨ k ∈ desired.keys then some (desired.get k) else none := by
  let removed := (current.keys.filter (· ∉ desired.keys)).map fun k => (k, (none : Option α))
  have hkeys : removed.map Prod.fst = current.keys.filter (· ∉ desired.keys) := by
    simp [removed, Function.comp_def]
  have hpairs : (desired.entries.map fun e => (e.1, some e.2)).map Prod.fst = desired.keys := by
    simp [keys, Function.comp_def]
  by_cases hdesired : k ∈ desired.keys
  · obtain ⟨v, hv⟩ := (mem_keys_iff desired k).mp hdesired
    have hmem := List.mem_map_of_mem (f := fun e => (e.1, some e.2)) ((get_eq_some_iff _ _ _).mp hv)
    rw [if_pos (Or.inr hdesired), hv]
    refine (get_updateList_of_notMem _ removed k ?_).trans ?_
    · rw [hkeys]
      simp [hdesired]
    · exact get_updateList_of_nodup _ _ (hpairs ▸ desired.nodup) hmem
  · have hnone : desired.get k = none := (get_eq_none_iff _ _).mpr hdesired
    by_cases hcurrent : k ∈ current.keys
    · have hnodup : (removed.map Prod.fst).Nodup := by
        rw [hkeys]
        exact List.Nodup.filter _ current.nodup
      rw [if_pos (Or.inl hcurrent), hnone]
      exact get_updateList_of_nodup _ removed hnodup (List.mem_map.mpr
        ⟨k, List.mem_filter.mpr ⟨hcurrent, by simpa using hdesired⟩, rfl⟩)
    · rw [if_neg (by simp [hdesired, hcurrent])]
      refine (get_updateList_of_notMem _ removed k ?_).trans
        (get_updateList_of_notMem _ _ k (by rw [hpairs]; exact hdesired))
      rw [hkeys]
      simp [hcurrent]

/-- What somebody else has written meanwhile stays unless the patch carries the key with another
value. -/
theorem get_mergePatch_patchTo_eq_iff (live current desired : Dict κ α) (k : κ) :
    (live.mergePatch (patchTo current desired)).get k = live.get k ↔
      (k ∉ current.keys ∧ k ∉ desired.keys) ∨ desired.get k = live.get k := by
  rw [get_mergePatch, get_patchTo]
  split_ifs with h
  · exact (or_iff_right (not_and_or.mpr (by simpa [not_not] using h))).symm
  · simp [not_or.mp h]

/-- A patch that carries what is desired, and deletes nothing, reaches it at every key but those
that are to go. -/
theorem get_mergePatch_eq_desired_iff (live desired : Dict κ α) (k : κ) :
    (live.mergePatch (patchTo empty desired)).get k = desired.get k ↔
      (k ∈ live.keys → k ∈ desired.keys) := by
  rw [get_mergePatch, get_patchTo]
  by_cases hdesired : k ∈ desired.keys
  · simp [hdesired]
  · have hempty : k ∉ (empty : Dict κ α).keys := List.not_mem_nil
    rw [if_neg (not_or.mpr ⟨hempty, hdesired⟩), (get_eq_none_iff _ _).mpr hdesired,
      Option.getD_none, get_eq_none_iff]
    simp [hdesired]

end Py.Dict
