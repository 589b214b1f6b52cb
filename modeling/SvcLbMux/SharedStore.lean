import SvcLbMux.Library.CheckedCell
import SvcLbMux.PortAllocations

namespace SvcLbMux

open Py

variable (namespace_ name : String)

/-- The store of a mux that is configured with this ConfigMap in its namespace. -/
def storeOf (mux : String) : ConfigMapAllocationStore := ⟨namespace_, name, (namespace_, mux)⟩

theorem muxRef_injective {mux mux' : String}
    (h : (storeOf namespace_ name mux).muxRef = (storeOf namespace_ name mux').muxRef) :
    mux = mux' := by
  have htext : namespace_ ++ "/" ++ mux = namespace_ ++ "/" ++ mux' := h
  have hlist := congrArg String.toList htext
  simp only [String.toList_append, List.append_cancel_left_eq] at hlist
  exact String.toList_inj.mp hlist

theorem muxRef_ne_empty (mux : String) : (storeOf namespace_ name mux).muxRef ≠ "" := by
  intro h
  have hlist := congrArg String.toList h
  simp [ConfigMapAllocationStore.muxRef] at hlist

theorem isOk_iff {ε α : Type*} {outcome : Except ε α} :
    outcome.isOk = true ↔ ∃ a, outcome = .ok a := by
  cases outcome with
  | error e => simp [Except.toBool]
  | ok a => simp [Except.toBool]

theorem validateStateOwner_ok_iff (mux : String) (state : Option StateDoc) :
    (storeOf namespace_ name mux).validateStateOwner state = .ok () ↔
      ∀ key, state.bind StateDoc.mux = some key → key = (some namespace_, some mux) := by
  unfold ConfigMapAllocationStore.validateStateOwner
  cases state.bind StateDoc.mux with
  | none => simp
  | some key =>
    dsimp only
    split_ifs with h
    · simpa [storeOf] using h
    · simpa [storeOf] using h

theorem load_eq_ok_iff (mux : String) (configmap : ConfigMap) (state : Option StateDoc) :
    (storeOf namespace_ name mux).load (some configmap) = .ok state ↔
      (∀ owner, configmap.muxAnnotation = some owner → owner ≠ "" →
        owner = (storeOf namespace_ name mux).muxRef) ∧
      ConfigMapAllocationStore.decodeState configmap.data = .ok state ∧
      ∀ key, state.bind StateDoc.mux = some key → key = (some namespace_, some mux) := by
  rw [← ConfigMapAllocationStore.ownerAccepted_iff, ← validateStateOwner_ok_iff]
  unfold ConfigMapAllocationStore.load
  dsimp only
  cases (storeOf namespace_ name mux).validateConfigmapOwner configmap with
  | error e => simp
  | ok _ =>
    dsimp only
    cases ConfigMapAllocationStore.decodeState configmap.data with
    | error e => simp
    | ok found =>
      dsimp only
      cases hfound : (storeOf namespace_ name mux).validateStateOwner found with
      | error e =>
        simp only [reduceCtorEq, true_and, Except.ok.injEq, false_iff, not_and]
        rintro rfl hok
        rw [hfound] at hok
        cases hok
      | ok _ =>
        simp only [Except.ok.injEq, true_and]
        constructor
        · rintro rfl
          exact ⟨rfl, hfound⟩
        · rintro ⟨rfl, -⟩
          rfl

/-- The muxes that share the ConfigMap, each loading it before it saves. -/
def sharedConfigmap : CheckedCell String ConfigMap StateDoc where
  admits mux configmap := ((storeOf namespace_ name mux).load (some configmap)).isOk
  stamp mux state := (storeOf namespace_ name mux).save state
  admits_stamp mux mux' state := by
    rw [isOk_iff]
    simp only [load_eq_ok_iff]
    constructor
    · rintro ⟨_, hannotated, -⟩
      exact muxRef_injective namespace_ name
        (hannotated _ rfl (muxRef_ne_empty namespace_ name mux')).symm
    · rintro rfl
      refine ⟨_, ?_, rfl, ?_⟩
      · rintro owner h -
        exact (Option.some.inj h).symm
      · rintro key h
        exact (Option.some.inj h).symm

/-- No annotation, no embedded mux: whoever loads this ConfigMap may go on. -/
def Ownerless (configmap : ConfigMap) : Prop :=
  (∀ owner, configmap.muxAnnotation = some owner → owner = "") ∧
    ∃ state, ConfigMapAllocationStore.decodeState configmap.data = .ok state ∧
      state.bind StateDoc.mux = none

theorem admits_sharedConfigmap (mux : String) (configmap : ConfigMap) :
    (sharedConfigmap namespace_ name).admits mux configmap = true ↔
      ∃ state, (storeOf namespace_ name mux).load (some configmap) = .ok state :=
  isOk_iff

theorem owned_iff (configmap : ConfigMap) :
    (sharedConfigmap namespace_ name).Owned configmap ↔ ¬ Ownerless configmap := by
  constructor
  · rintro howned ⟨hannotated, state, hdecode, hembedded⟩
    have hany : ∀ mux, (sharedConfigmap namespace_ name).admits mux configmap = true := by
      intro mux
      rw [admits_sharedConfigmap]
      refine ⟨state, (load_eq_ok_iff namespace_ name mux configmap state).mpr ⟨?_, hdecode, ?_⟩⟩
      · exact fun owner h hne => absurd (hannotated owner h) hne
      · simp [hembedded]
    exact absurd (howned "a" "b" (hany _) (hany _)) (by decide)
  · intro hnamed mux mux' hmux hmux'
    simp only [admits_sharedConfigmap, load_eq_ok_iff] at hmux hmux'
    obtain ⟨state, hannotated, hdecode, hembedded⟩ := hmux
    obtain ⟨state', hannotated', hdecode', hembedded'⟩ := hmux'
    obtain rfl := Except.ok.inj (hdecode.symm.trans hdecode')
    -- Either the annotation names both muxes, or the embedded state does.
    by_cases howner : ∀ owner, configmap.muxAnnotation = some owner → owner = ""
    · obtain ⟨key, hkey⟩ := Option.ne_none_iff_exists'.mp fun hnone =>
        hnamed ⟨howner, state, hdecode, hnone⟩
      exact Option.some.inj (Prod.mk.inj ((hembedded key hkey).symm.trans (hembedded' key hkey))).2
    · push Not at howner
      obtain ⟨owner, hset, hne⟩ := howner
      exact muxRef_injective namespace_ name
        ((hannotated owner hset hne).symm.trans (hannotated' owner hset hne))

/-- The muxes and their ConfigMap after some loads and saves, from a ConfigMap nobody has loaded. -/
def sharedRun (configmap : Option ConfigMap) (events : List (CheckedCell.Event String StateDoc)) :
    CheckedCell.State String ConfigMap :=
  events.foldl (sharedConfigmap namespace_ name).step (CheckedCell.start configmap)

/-- At most one mux completes a save, and no save replaces the data of another, exactly when no mux
that had loaded the ConfigMap without an owner saves after another one has made it its own. -/
theorem shared_configmap_exclusive_iff (namespace_ name : String) (configmap : Option ConfigMap)
    (events : List (CheckedCell.Event String StateDoc)) :
    (sharedConfigmap namespace_ name).Exclusive (sharedRun namespace_ name configmap events).writes ↔
      ∀ before mux state after, events = before ++ .write mux state :: after →
        ∀ found, (sharedRun namespace_ name configmap before).seen mux = some (some found) →
          Ownerless found → ∀ live, (sharedRun namespace_ name configmap before).cell = some live →
            ∃ loaded, (storeOf namespace_ name mux).load (some live) = .ok loaded := by
  rw [sharedRun, CheckedCell.exclusive_iff_unraced]
  constructor
  · intro h before mux state after hsplit found hseen hownerless live hlive
    rw [← admits_sharedConfigmap]
    refine h before _ after hsplit found hseen ?_ live hlive
    rw [owned_iff, not_not]
    exact hownerless
  · intro h before e after hsplit
    cases e with
    | read mux => trivial
    | write mux state =>
      intro found hseen hfree live hlive
      rw [owned_iff, not_not] at hfree
      rw [admits_sharedConfigmap]
      exact h before mux state after hsplit found hseen hfree live hlive

theorem shared_configmap_exclusive_of_owned (configmap : Option ConfigMap)
    (h : ∀ found, configmap = some found → ¬ Ownerless found)
    (events : List (CheckedCell.Event String StateDoc)) :
    (sharedConfigmap namespace_ name).Exclusive
      (sharedRun namespace_ name configmap events).writes :=
  (CheckedCell.exclusive_iff_unraced configmap events).mpr fun before e _ _ =>
    CheckedCell.unraced_of_owned (fun found hfound => (owned_iff _ _ _).mpr (h found hfound)) before e

def ownerlessConfigmap : ConfigMap where
  muxAnnotation := none
  data := .document (some { mux := none, portClaims := some [], allocations := none })

def racedEvents : List (CheckedCell.Event String StateDoc) :=
  [.read "a", .read "b",
    .write "a" ⟨none, some [Claim.ofRef ⟨"default", "web", "http", "TCP"⟩ 80 9000 "auto"], some []⟩,
    .write "b" ⟨none, some [], some []⟩]

/-- Both saves are carried out, and the claim that `a` has saved is gone. -/
theorem shared_configmap_overwritten :
    ((sharedRun "default" "state" (some ownerlessConfigmap) racedEvents).writes.map Prod.fst =
        ["a", "b"] ∧
      (sharedRun "default" "state" (some ownerlessConfigmap) racedEvents).cell =
        some ((storeOf "default" "state" "b").save ⟨none, some [], some []⟩)) ∧
      ¬ (sharedConfigmap "default" "state").Exclusive
        (sharedRun "default" "state" (some ownerlessConfigmap) racedEvents).writes := by
  have hwriters : (sharedRun "default" "state" (some ownerlessConfigmap) racedEvents).writes.map
      Prod.fst = ["a", "b"] := by decide +kernel
  refine ⟨⟨hwriters, by decide +kernel⟩, fun h => ?_⟩
  obtain ⟨e, he, ha⟩ := List.mem_map.mp (hwriters ▸ by simp :
    "a" ∈ (sharedRun "default" "state" (some ownerlessConfigmap) racedEvents).writes.map Prod.fst)
  obtain ⟨e', he', hb⟩ := List.mem_map.mp (hwriters ▸ by simp :
    "b" ∈ (sharedRun "default" "state" (some ownerlessConfigmap) racedEvents).writes.map Prod.fst)
  have hsame := h.one e he e' he'
  rw [ha, hb] at hsame
  exact absurd hsame (by decide)

end SvcLbMux
