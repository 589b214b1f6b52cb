import Mathlib.Algebra.GroupWithZero.Nat
import Mathlib.Data.List.Nodup
import Mathlib.Data.List.Basic
import Mathlib.Data.List.Induction

namespace Py

/-- A Python `dict`: its entries in insertion order, each key once. -/
structure Dict (κ α : Type*) where
  entries : List (κ × α)
  nodup : (entries.map Prod.fst).Nodup

namespace Dict

variable {κ α β : Type*}

def keys (d : Dict κ α) : List κ := d.entries.map Prod.fst

def empty : Dict κ α := ⟨[], List.nodup_nil⟩

def mapValues (f : α → β) (d : Dict κ α) : Dict κ β :=
  ⟨d.entries.map fun e => (e.1, f e.2), by
    rw [List.map_map]
    exact d.nodup⟩

theorem eq_of_entries_eq {d e : Dict κ α} (h : d.entries = e.entries) : d = e := by
  obtain ⟨entries, nodup⟩ := d
  obtain ⟨entries', nodup'⟩ := e
  congr

theorem keys_mapValues (f : α → β) (d : Dict κ α) : (d.mapValues f).keys = d.keys := by
  rw [keys, mapValues, List.map_map]
  rfl

variable [DecidableEq κ]

instance [DecidableEq α] : DecidableEq (Dict κ α) := fun d e =>
  decidable_of_iff (d.entries = e.entries) ⟨fun h => by cases d; cases e; simp_all, congrArg _⟩

/-- `d.get(k)`: `none` where Python returns `None`. -/
def get (d : Dict κ α) (k : κ) : Option α := (d.entries.find? fun e => e.1 = k).map Prod.snd

def contains (d : Dict κ α) (k : κ) : Bool := (d.get k).isSome

theorem get_eq_some_iff (d : Dict κ α) (k : κ) (v : α) :
    d.get k = some v ↔ (k, v) ∈ d.entries := by
  obtain ⟨entries, nodup⟩ := d
  simp only [get]
  induction entries with
  | nil => simp
  | cons e rest ih =>
    obtain ⟨j, w⟩ := e
    simp only [List.map_cons, List.nodup_cons] at nodup
    by_cases h : j = k
    · subst h
      have hnot : (j, v) ∉ rest := fun hm => nodup.1 (List.mem_map.mpr ⟨_, hm, rfl⟩)
      simp [hnot, eq_comm]
    · simp [h, ih nodup.2, Ne.symm h]

theorem get_eq_none_iff (d : Dict κ α) (k : κ) : d.get k = none ↔ k ∉ d.keys := by
  simp only [get, keys, Option.map_eq_none_iff, List.find?_eq_none, decide_eq_true_eq]
  constructor
  · intro h hk
    obtain ⟨e, he, rfl⟩ := List.mem_map.mp hk
    exact h e he rfl
  · intro h e he hk
    exact h (List.mem_map.mpr ⟨e, he, hk⟩)

theorem mem_keys_iff (d : Dict κ α) (k : κ) : k ∈ d.keys ↔ ∃ v, d.get k = some v := by
  rw [← Option.ne_none_iff_exists', ne_eq, get_eq_none_iff, not_not]

@[simp] theorem get_empty (k : κ) : (empty : Dict κ α).get k = none := rfl

@[simp] theorem contains_eq_true (d : Dict κ α) (k : κ) :
    d.contains k = true ↔ k ∈ d.keys := by
  rw [contains, Option.isSome_iff_exists, mem_keys_iff]

/-- `d[k] = v`: an existing key keeps its place, a new one goes to the end. -/
def set (d : Dict κ α) (k : κ) (v : α) : Dict κ α :=
  if h : k ∈ d.keys then
    ⟨d.entries.map fun e => if e.1 = k then (k, v) else e, by
      rw [List.map_map]
      have hmap : (d.entries.map (Prod.fst ∘ fun e => if e.1 = k then (k, v) else e)) =
          d.entries.map Prod.fst := by
        apply List.map_congr_left
        intro e _
        simp only [Function.comp_apply]
        split_ifs with he
        · exact he.symm
        · rfl
      rw [hmap]
      exact d.nodup⟩
  else ⟨d.entries ++ [(k, v)], by
    rw [List.map_append]
    refine List.nodup_append.mpr ⟨d.nodup, List.nodup_singleton k, ?_⟩
    rintro j hj i hi rfl
    obtain rfl : j = k := List.mem_singleton.mp hi
    exact h hj⟩

/-- `d.pop(k, None)`. -/
def erase (d : Dict κ α) (k : κ) : Dict κ α :=
  ⟨d.entries.filter fun e => e.1 ≠ k, (List.filter_sublist.map Prod.fst).nodup d.nodup⟩

def filterKeys (d : Dict κ α) (p : κ → Bool) : Dict κ α :=
  ⟨d.entries.filter fun e => p e.1, (List.filter_sublist.map Prod.fst).nodup d.nodup⟩

/-- `d.setdefault(k, v)`, without the value it returns. -/
def setDefault (d : Dict κ α) (k : κ) (v : α) : Dict κ α := if k ∈ d.keys then d else d.set k v

/-- A loop of `d.setdefault(k, v)`: the first pair with a new key decides. -/
def setDefaults (d : Dict κ α) (pairs : List (κ × α)) : Dict κ α :=
  pairs.foldl (fun d e => d.setDefault e.1 e.2) d

/-- `d.update(pairs)`. -/
def updateList (d : Dict κ α) (pairs : List (κ × α)) : Dict κ α :=
  pairs.foldl (fun d e => d.set e.1 e.2) d

/-- `d.update(e)`. -/
def update (d e : Dict κ α) : Dict κ α := d.updateList e.entries

/-- `dict(pairs)`: a later pair overwrites an earlier one. -/
def ofList (pairs : List (κ × α)) : Dict κ α := empty.updateList pairs

@[simp] theorem get_set (d : Dict κ α) (k j : κ) (v : α) :
    (d.set k v).get j = if k = j then some v else d.get j := by
  by_cases hk : k ∈ d.keys
  · obtain ⟨w, hw⟩ := (mem_keys_iff d k).mp hk
    rw [get_eq_some_iff] at hw
    apply Option.ext
    intro u
    rw [get_eq_some_iff, set, dif_pos hk]
    simp only [List.mem_map]
    split_ifs with hkj
    · subst hkj
      constructor
      · rintro ⟨e, -, he⟩
        split_ifs at he with h
        · simpa [eq_comm] using congrArg Prod.snd he
        · exact absurd (congrArg Prod.fst he) h
      · intro hu
        exact ⟨(k, w), hw, by simpa using hu⟩
    · rw [get_eq_some_iff]
      constructor
      · rintro ⟨e, he, heq⟩
        split_ifs at heq with h
        · exact absurd (congrArg Prod.fst heq) hkj
        · exact heq ▸ he
      · intro hu
        exact ⟨(j, u), hu, if_neg (Ne.symm hkj)⟩
  · have hnone := (get_eq_none_iff d k).mpr hk
    apply Option.ext
    intro u
    rw [get_eq_some_iff, set, dif_neg hk]
    simp only [List.mem_append, List.mem_singleton, Prod.mk.injEq]
    split_ifs with hkj
    · subst hkj
      rw [← get_eq_some_iff, hnone]
      simp [eq_comm]
    · rw [get_eq_some_iff]
      exact or_iff_left fun h => hkj h.1.symm

theorem get_set_self (d : Dict κ α) (k : κ) (v : α) : (d.set k v).get k = some v := by simp

theorem get_set_ne (d : Dict κ α) {k j : κ} (h : k ≠ j) (v : α) :
    (d.set k v).get j = d.get j := by simp [h]

@[simp] theorem get_filterKeys (d : Dict κ α) (p : κ → Bool) (k : κ) :
    (d.filterKeys p).get k = if p k then d.get k else none := by
  apply Option.ext
  intro u
  split_ifs with hp
  · rw [get_eq_some_iff, get_eq_some_iff]
    simp [filterKeys, hp]
  · rw [get_eq_some_iff]
    simp [filterKeys, hp]

/-- Entries that go because of their values leave the others. -/
theorem get_filterKeys_of_values {d : Dict κ α} {p : κ → Bool} {k : κ} {v : α} (P : α → Prop)
    (hp : ¬ p k ↔ ∃ found, d.get k = some found ∧ P found) :
    (d.filterKeys p).get k = some v ↔ d.get k = some v ∧ ¬ P v := by
  rw [get_filterKeys]
  by_cases hkept : p k
  · rw [if_pos hkept]
    refine (and_iff_left_of_imp fun hget hgoes => ?_).symm
    exact hp.mpr ⟨v, hget, hgoes⟩ hkept
  · obtain ⟨found, hfound, hgoes⟩ := hp.mp hkept
    rw [if_neg hkept, hfound]
    refine iff_of_false (by simp) fun h => h.2 ?_
    obtain rfl := Option.some.inj h.1
    exact hgoes

@[simp] theorem get_erase (d : Dict κ α) (k j : κ) :
    (d.erase k).get j = if k = j then none else d.get j := by
  have h := get_filterKeys d (fun i => i ≠ k) j
  rw [show d.erase k = d.filterKeys fun i => i ≠ k from rfl, h]
  by_cases hkj : k = j
  · simp [hkj]
  · simp [hkj, Ne.symm hkj]

theorem get_setDefault (d : Dict κ α) (k j : κ) (v : α) :
    (d.setDefault k v).get j = if k = j then some ((d.get k).getD v) else d.get j := by
  unfold setDefault
  split_ifs with hk hkj hkj
  · obtain ⟨w, hw⟩ := (mem_keys_iff d k).mp hk
    rw [← hkj, hw]
    rfl
  · rfl
  · rw [← hkj, get_set_self, (get_eq_none_iff d k).mpr hk]
    rfl
  · exact get_set_ne d hkj v

theorem get_setDefaults (d : Dict κ α) (pairs : List (κ × α)) (k : κ) :
    (d.setDefaults pairs).get k =
      (d.get k).or ((pairs.find? fun e => e.1 = k).map Prod.snd) := by
  induction pairs generalizing d with
  | nil => simp [setDefaults]
  | cons e rest ih =>
    change ((d.setDefault e.1 e.2).setDefaults rest).get k = _
    rw [ih, get_setDefault]
    by_cases hk : e.1 = k
    · cases hd : d.get k <;> simp [hk, hd]
    · simp [hk]

/-- A lookup after an update list finds an entry of the list or the old value. -/
theorem mem_of_get_setDefaults_empty {pairs : List (κ × α)} {k : κ} {v : α}
    (h : (empty.setDefaults pairs).get k = some v) : (k, v) ∈ pairs := by
  rw [get_setDefaults, get_empty, Option.none_or] at h
  obtain ⟨e, hfind, rfl⟩ := Option.map_eq_some_iff.mp h
  obtain rfl : e.1 = k := by simpa using List.find?_some hfind
  exact List.mem_of_find?_eq_some hfind

theorem exists_get_setDefaults_empty {pairs : List (κ × α)} {k : κ} {v : α} (h : (k, v) ∈ pairs) :
    ∃ w, (empty.setDefaults pairs).get k = some w := by
  rw [get_setDefaults, get_empty, Option.none_or]
  cases hfind : pairs.find? fun e => e.1 = k with
  | none => simpa using List.find?_eq_none.mp hfind _ h
  | some e => exact ⟨e.2, rfl⟩

theorem get_setDefaults_empty_iff {pairs : List (κ × α)} {k : κ}
    (hunique : ∀ v w, (k, v) ∈ pairs → (k, w) ∈ pairs → v = w) {v : α} :
    (empty.setDefaults pairs).get k = some v ↔ (k, v) ∈ pairs := by
  refine ⟨mem_of_get_setDefaults_empty, fun h => ?_⟩
  obtain ⟨w, hw⟩ := exists_get_setDefaults_empty h
  rw [hw, hunique w v (mem_of_get_setDefaults_empty hw) h]

theorem get_setDefaults_filterMap {β : Type*} (d : Dict κ α) (e : Dict κ β) (f : β → Option α)
    (k : κ) : (d.setDefaults (e.entries.filterMap fun x => (f x.2).map fun v => (x.1, v))).get k =
      (d.get k).or ((e.get k).bind f) := by
  let pairs := e.entries.filterMap fun x => (f x.2).map fun v => (x.1, v)
  have hmem : ∀ v, (k, v) ∈ pairs ↔ (e.get k).bind f = some v := by
    intro v
    simp [pairs, Option.bind_eq_some_iff, get_eq_some_iff]
  have hpairs : (empty.setDefaults pairs).get k = (e.get k).bind f := by
    ext v
    rw [get_setDefaults_empty_iff (fun v w hv hw => ?_), hmem]
    exact Option.some.inj (((hmem v).mp hv).symm.trans ((hmem w).mp hw))
  rw [get_setDefaults, ← hpairs, get_setDefaults, get_empty, Option.none_or]

theorem get_updateList_of_notMem (d : Dict κ α) (pairs : List (κ × α)) (k : κ)
    (h : k ∉ pairs.map Prod.fst) : (d.updateList pairs).get k = d.get k := by
  induction pairs generalizing d with
  | nil => rfl
  | cons e rest ih =>
    simp only [List.map_cons, List.mem_cons, not_or] at h
    change ((d.set e.1 e.2).updateList rest).get k = d.get k
    rw [ih _ h.2, get_set_ne d (Ne.symm h.1)]

theorem mem_or_get_of_get_updateList (d : Dict κ α) (pairs : List (κ × α)) (k : κ) (v : α)
    (h : (d.updateList pairs).get k = some v) : (k, v) ∈ pairs ∨ d.get k = some v := by
  induction pairs generalizing d with
  | nil => exact Or.inr h
  | cons e rest ih =>
    rcases ih (d.set e.1 e.2) h with hr | hd
    · exact Or.inl (List.mem_cons_of_mem _ hr)
    · rw [get_set] at hd
      split_ifs at hd with hk
      · exact Or.inl (by simp [← hk, ← Option.some.inj hd])
      · exact Or.inr hd

theorem mem_keys_updateList (d : Dict κ α) (pairs : List (κ × α)) (k : κ) :
    k ∈ (d.updateList pairs).keys ↔ k ∈ d.keys ∨ k ∈ pairs.map Prod.fst := by
  induction pairs generalizing d with
  | nil => simp [updateList]
  | cons e rest ih =>
    have hset : k ∈ (d.set e.1 e.2).keys ↔ k ∈ d.keys ∨ k = e.1 := by
      rw [mem_keys_iff, mem_keys_iff, get_set]
      split_ifs with he
      · simp [he]
      · simp [Ne.symm he]
    change k ∈ ((d.set e.1 e.2).updateList rest).keys ↔ _
    rw [ih, hset, List.map_cons, List.mem_cons, or_assoc]

theorem get_updateList_of_nodup (d : Dict κ α) (pairs : List (κ × α))
    (hnd : (pairs.map Prod.fst).Nodup) {k : κ} {v : α} (h : (k, v) ∈ pairs) :
    (d.updateList pairs).get k = some v := by
  induction pairs generalizing d with
  | nil => simp at h
  | cons e rest ih =>
    simp only [List.map_cons, List.nodup_cons] at hnd
    change ((d.set e.1 e.2).updateList rest).get k = some v
    rcases List.mem_cons.mp h with rfl | hr
    · rw [get_updateList_of_notMem _ _ _ hnd.1, get_set_self]
    · exact ih _ hnd.2 hr

theorem entries_set_of_notMem (d : Dict κ α) {k : κ} (h : k ∉ d.keys) (v : α) :
    (d.set k v).entries = d.entries ++ [(k, v)] := by
  rw [set, dif_neg h]

theorem keys_set_of_notMem {d : Dict κ α} {k : κ} (h : k ∉ d.keys) (v : α) :
    (d.set k v).keys = d.keys ++ [k] := by
  rw [keys, entries_set_of_notMem d h, List.map_append]
  rfl

theorem keys_set_of_mem {d : Dict κ α} {k : κ} (h : k ∈ d.keys) (v : α) :
    (d.set k v).keys = d.keys := by
  rw [set, dif_pos h, keys, keys, List.map_map]
  refine List.map_congr_left fun e _ => ?_
  rw [Function.comp_apply]
  split_ifs with he
  · exact he.symm
  · rfl

theorem keys_erase (d : Dict κ α) (k : κ) : (d.erase k).keys = d.keys.erase k := by
  have hnodup : d.keys.Nodup := d.nodup
  rw [hnodup.erase_eq_filter k, erase, keys, keys, List.filter_map]
  congr 1
  refine List.filter_congr fun e _ => ?_
  simp [bne, beq_eq_decide]

theorem entries_updateList_of_nodup (d : Dict κ α) (pairs : List (κ × α))
    (h : (d.keys ++ pairs.map Prod.fst).Nodup) :
    (d.updateList pairs).entries = d.entries ++ pairs := by
  induction pairs generalizing d with
  | nil => simp [updateList]
  | cons e rest ih =>
    have hnew : e.1 ∉ d.keys := fun hmem =>
      (List.nodup_append.mp h).2.2 _ hmem _ (List.mem_cons_self) rfl
    have hentries := entries_set_of_notMem d hnew e.2
    have hkeys : (d.set e.1 e.2).keys = d.keys ++ [e.1] := by
      rw [keys, hentries, List.map_append]
      rfl
    change ((d.set e.1 e.2).updateList rest).entries = _
    rw [ih, hentries, List.append_assoc, List.singleton_append]
    rw [hkeys, List.append_assoc]
    exact h

theorem entries_ofList_of_nodup {pairs : List (κ × α)} (h : (pairs.map Prod.fst).Nodup) :
    (ofList pairs).entries = pairs :=
  entries_updateList_of_nodup empty pairs h

section Rel

variable {β : Type*} {R : α → β → Prop} {d : Dict κ α} {e : Dict κ β}

theorem rel_get_set (h : ∀ k, Option.Rel R (d.get k) (e.get k)) (j : κ) {v : α} {w : β}
    (hvw : R v w) (k : κ) : Option.Rel R ((d.set j v).get k) ((e.set j w).get k) := by
  rw [get_set, get_set]
  split_ifs
  · exact .some hvw
  · exact h k

theorem rel_get_updateList {pairs : List (κ × α)} {pairs' : List (κ × β)}
    (hpairs : List.Forall₂ (fun p q => p.1 = q.1 ∧ R p.2 q.2) pairs pairs')
    (h : ∀ k, Option.Rel R (d.get k) (e.get k)) (k : κ) :
    Option.Rel R ((d.updateList pairs).get k) ((e.updateList pairs').get k) := by
  induction hpairs generalizing d e with
  | nil => exact h k
  | @cons p q pairs pairs' hpq _ ih =>
    obtain ⟨j, w⟩ := q
    obtain ⟨rfl, hvw⟩ := hpq
    exact ih (rel_get_set h p.1 hvw)

end Rel

section MapValues

variable (f : α → β) (d : Dict κ α)

theorem mapValues_set (k : κ) (v : α) : (d.set k v).mapValues f = (d.mapValues f).set k (f v) := by
  apply eq_of_entries_eq
  by_cases hk : k ∈ d.keys
  · rw [set, set, dif_pos hk, dif_pos (by rwa [keys_mapValues])]
    simp only [mapValues, List.map_map]
    apply List.map_congr_left
    intro e _
    simp only [Function.comp_apply]
    split_ifs <;> rfl
  · rw [set, set, dif_neg hk, dif_neg (by rwa [keys_mapValues])]
    simp only [mapValues, List.map_append, List.map_singleton]

omit [DecidableEq κ] in
theorem mapValues_filterKeys (p : κ → Bool) :
    (d.filterKeys p).mapValues f = (d.mapValues f).filterKeys p := by
  apply eq_of_entries_eq
  simp only [mapValues, filterKeys, List.filter_map]
  rfl

theorem filter_entries_set {p : κ → Bool} {k : κ} (hp : p k = false) (v : α) :
    ((d.set k v).entries.filter fun e => p e.1) = d.entries.filter fun e => p e.1 := by
  by_cases hk : k ∈ d.keys
  · rw [set, dif_pos hk]
    dsimp only
    induction d.entries with
    | nil => rfl
    | cons e rest ih =>
      rw [List.map_cons, List.filter_cons, List.filter_cons, ih]
      by_cases he : e.1 = k
      · simp [he, hp]
      · simp [he]
  · rw [set, dif_neg hk]
    simp [hp]

end MapValues

section FilterKeys

variable {d : Dict κ α} {p : κ → Bool} {k : κ}

theorem filterKeys_set_of_dropped (hp : p k = false) (v : α) :
    (d.set k v).filterKeys p = d.filterKeys p :=
  eq_of_entries_eq (filter_entries_set d hp v)

theorem filterKeys_set_of_kept (hp : p k = true) (v : α) :
    (d.set k v).filterKeys p = (d.filterKeys p).set k v := by
  apply eq_of_entries_eq
  by_cases hk : k ∈ d.keys
  · have hk' : k ∈ (d.filterKeys p).keys := by
      obtain ⟨w, hw⟩ := (mem_keys_iff d k).mp hk
      exact (mem_keys_iff _ k).mpr ⟨w, by rw [get_filterKeys, if_pos hp, hw]⟩
    rw [set, set, dif_pos hk, dif_pos hk']
    simp only [filterKeys, List.filter_map]
    congr 1
    apply List.filter_congr
    intro e _
    by_cases he : e.1 = k
    · simp [he, hp]
    · simp [he]
  · have hk' : k ∉ (d.filterKeys p).keys := by
      rw [← get_eq_none_iff] at hk ⊢
      rw [get_filterKeys, if_pos hp, hk]
    rw [set, set, dif_neg hk, dif_neg hk']
    simp [filterKeys, hp]

theorem filterKeys_erase : (d.erase k).filterKeys p = (d.filterKeys p).erase k :=
  eq_of_entries_eq (by simp only [erase, filterKeys, List.filter_filter, Bool.and_comm])

theorem filterKeys_erase_of_dropped (hp : p k = false) :
    (d.erase k).filterKeys p = d.filterKeys p := by
  apply eq_of_entries_eq
  simp only [erase, filterKeys, List.filter_filter]
  apply List.filter_congr
  intro e _
  by_cases he : e.1 = k
  · simp [he, hp]
  · simp [he]

end FilterKeys

theorem set_eq_self {d : Dict κ α} {k : κ} {v : α} (h : d.get k = some v) : d.set k v = d := by
  apply eq_of_entries_eq
  rw [set, dif_pos ((mem_keys_iff d k).mpr ⟨v, h⟩)]
  refine (List.map_congr_left fun e he => ?_).trans (List.map_id d.entries)
  split_ifs with hek
  · have hget : d.get k = some e.2 := (get_eq_some_iff d k e.2).mpr (hek ▸ he)
    rw [h] at hget
    exact Prod.ext hek.symm (Option.some.inj hget)
  · rfl

def total (d : Dict κ α) (w : α → ℕ) : ℕ := (d.entries.map fun e => w e.2).sum

theorem total_set_of_notMem {d : Dict κ α} {k : κ} (h : k ∉ d.keys) (v : α) (w : α → ℕ) :
    (d.set k v).total w = d.total w + w v := by
  rw [total, total, entries_set_of_notMem d h, List.map_append, List.sum_append]
  simp

/-- A value that takes the place of another adds its weight and takes away the other's. -/
theorem total_set_of_get {d : Dict κ α} {k : κ} {u : α} (h : d.get k = some u) (v : α)
    (w : α → ℕ) : (d.set k v).total w + w u = d.total w + w v := by
  have hmem := (get_eq_some_iff d k u).mp h
  have hkey : k ∈ d.keys := List.mem_map_of_mem hmem
  have hnodup := d.nodup
  obtain ⟨before, after, hsplit⟩ := List.append_of_mem hmem
  rw [hsplit, List.map_append, List.map_cons, List.nodup_middle] at hnodup
  have hother : ∀ l : List (κ × α), k ∉ l.map Prod.fst →
      (l.map fun e => if e.1 = k then (k, v) else e) = l := by
    intro l hl
    refine (List.map_congr_left fun e he => ?_).trans (List.map_id l)
    exact if_neg fun hek => hl (List.mem_map.mpr ⟨e, he, hek⟩)
  have hnot := (List.nodup_cons.mp hnodup).1
  rw [List.mem_append, not_or] at hnot
  have hentries : (d.set k v).entries = before ++ (k, v) :: after := by
    rw [set, dif_pos hkey]
    dsimp only
    rw [hsplit, List.map_append, List.map_cons, hother before hnot.1, hother after hnot.2,
      if_pos rfl]
  rw [total, total, hentries, hsplit]
  simp only [List.map_append, List.map_cons, List.sum_append, List.sum_cons]
  omega

/-- `d[k] = f(d[k])`, where the key is there. -/
def modify (d : Dict κ α) (k : κ) (f : α → α) : Dict κ α :=
  match d.get k with
  | none => d
  | some v => d.set k (f v)

theorem get_modify (d : Dict κ α) (k j : κ) (f : α → α) :
    (d.modify k f).get j = if k = j then (d.get j).map f else d.get j := by
  unfold modify
  cases hk : d.get k with
  | none =>
    split_ifs with hkj
    · rw [← hkj, hk]
      rfl
    · rfl
  | some v =>
    rw [get_set]
    split_ifs with hkj
    · rw [← hkj, hk]
      rfl
    · rfl

theorem get_update (d e : Dict κ α) (k : κ) : (d.update e).get k = (e.get k).or (d.get k) := by
  cases he : e.get k with
  | some v =>
    exact get_updateList_of_nodup d e.entries e.nodup ((get_eq_some_iff e k v).mp he)
  | none =>
    exact get_updateList_of_notMem d e.entries k ((get_eq_none_iff e k).mp he)

theorem mem_keys_set {d : Dict κ α} {k j : κ} {v : α} :
    j ∈ (d.set k v).keys ↔ j ∈ d.keys ∨ j = k := by
  have h := mem_keys_updateList d [(k, v)] j
  rwa [List.map_singleton, List.mem_singleton] at h

theorem get_updateList (d : Dict κ α) (pairs : List (κ × α)) (k : κ) :
    (d.updateList pairs).get k = ((ofList pairs).get k).or (d.get k) := by
  induction pairs generalizing d with
  | nil => rfl
  | cons e rest ih =>
    change ((d.set e.1 e.2).updateList rest).get k =
      (((empty.set e.1 e.2).updateList rest).get k).or (d.get k)
    rw [ih, ih (empty.set e.1 e.2), Option.or_assoc, get_set, get_set]
    split_ifs <;> simp

section Candidates

/-- `next(iter(s))` if `len(s) == 1`. -/
def soleElement : List α → Option α
  | [v] => some v
  | _ => none

theorem eq_of_mem_of_soleElement {l : List α} {v w : α} (hw : w ∈ l)
    (h : soleElement l = some v) : w = v := by
  match l, h with
  | [u], h =>
    obtain rfl := Option.some.inj h
    exact List.mem_singleton.mp hw
  | [], h => simp at hw
  | _ :: _ :: _, h => simp [soleElement] at h

theorem mem_of_soleElement {l : List α} {v : α} (h : soleElement l = some v) : v ∈ l := by
  match l, h with
  | [u], h =>
    obtain rfl := Option.some.inj h
    simp
  | [], h => simp [soleElement] at h
  | _ :: _ :: _, h => simp [soleElement] at h

theorem soleElement_of_forall_eq {l : List α} {v : α} (hnodup : l.Nodup) (hmem : v ∈ l)
    (hall : ∀ w ∈ l, w = v) : soleElement l = some v := by
  match l, hnodup with
  | [], _ => simp at hmem
  | [u], _ =>
    obtain rfl := hall u (by simp)
    rfl
  | u :: u' :: _, hnodup =>
    obtain rfl := hall u (by simp)
    obtain rfl := hall u' (by simp)
    simp at hnodup

variable [DecidableEq α]

/-- `d.setdefault(k, set()).add(v)`, a set being a list without repetitions. -/
def addTo (d : Dict κ (List α)) (k : κ) (v : α) : Dict κ (List α) :=
  d.set k (((d.get k).getD []).insert v)

/-- A loop of `addTo`. -/
def addAll (d : Dict κ (List α)) (pairs : List (κ × α)) : Dict κ (List α) :=
  pairs.foldl (fun d e => d.addTo e.1 e.2) d

theorem mem_get_addAll (d : Dict κ (List α)) (pairs : List (κ × α)) (k : κ) (v : α) :
    v ∈ ((d.addAll pairs).get k).getD [] ↔ (k, v) ∈ pairs ∨ v ∈ (d.get k).getD [] := by
  induction pairs generalizing d with
  | nil => simp [addAll]
  | cons e rest ih =>
    obtain ⟨j, w⟩ := e
    change v ∈ (((d.addTo j w).addAll rest).get k).getD [] ↔ _
    rw [ih, addTo, get_set]
    by_cases hjk : j = k
    · subst hjk
      simp only [if_true, Option.getD_some, List.mem_insert_iff, List.mem_cons, Prod.mk.injEq,
        true_and]
      tauto
    · simp [hjk, Ne.symm hjk]

theorem nodup_get_addAll {d : Dict κ (List α)} (h : ∀ k, ((d.get k).getD []).Nodup)
    (pairs : List (κ × α)) (k : κ) : (((d.addAll pairs).get k).getD []).Nodup := by
  induction pairs generalizing d with
  | nil => exact h k
  | cons e rest ih =>
    refine ih (d := d.addTo e.1 e.2) fun j => ?_
    rw [addTo, get_set]
    split_ifs
    · exact (h e.1).insert
    · exact h j

end Candidates

section Collect

variable {β : Type*} (key : β → κ) (init : β → α) (add : α → β → α)

/-- An item is added to what is there under its key, which the first of its items has put there. -/
def collect (d : Dict κ α) (b : β) : Dict κ α :=
  d.set (key b) (add ((d.get (key b)).getD (init b)) b)

/-- A loop of `collect` leaves under a key what the items of the key add up to. -/
theorem get_foldl_collect (items : List β) (k : κ) :
    (items.foldl (collect key init add) empty).get k =
      ((items.filter fun b => key b = k).head?).map fun b =>
        (items.filter fun b => key b = k).foldl add (init b) := by
  induction items using List.reverseRecOn with
  | nil => rfl
  | append_singleton items b ih =>
    rw [List.foldl_concat, collect, get_set, List.filter_append, List.head?_append]
    by_cases hk : key b = k
    · rw [if_pos hk, List.filter_singleton, hk, decide_eq_true rfl, cond_true, ih]
      cases (items.filter fun b => key b = k) with
      | nil => rfl
      | cons c rest => simp
    · rw [if_neg hk, ih, List.filter_singleton, decide_eq_false hk]
      simp

end Collect

/-- Equality of dicts as maps: Python's `d == e` does not look at the order. -/
def Same (d e : Dict κ α) : Prop := ∀ k, d.get k = e.get k

/-- `d == e`. -/
def same [DecidableEq α] (d e : Dict κ α) : Bool :=
  d.keys.all (fun k => d.get k = e.get k) && e.keys.all (fun k => d.get k = e.get k)

theorem same_iff [DecidableEq α] (d e : Dict κ α) : d.same e = true ↔ d.Same e := by
  simp only [same, Bool.and_eq_true, List.all_eq_true, decide_eq_true_eq, Same]
  constructor
  · rintro ⟨hd, he⟩ k
    by_cases hk : k ∈ d.keys
    · exact hd k hk
    · by_cases hk' : k ∈ e.keys
      · exact he k hk'
      · rw [(get_eq_none_iff d k).mpr hk, (get_eq_none_iff e k).mpr hk']
  · exact fun h => ⟨fun k _ => h k, fun k _ => h k⟩

end Dict

end Py
