import SvcLbMux.Interruptions
import SvcLbMux.Quiescence

namespace SvcLbMux

open Py

variable {cfg : Config}

/-! ## Annotations of the mux -/

theorem userOwned_congr {annotations annotations' : Dict String String} {key : String}
    (hkey : annotations'.get key = annotations.get key)
    (htracking : annotations'.get cfg.annotationExternalDnsAggregated =
      annotations.get cfg.annotationExternalDnsAggregated) :
    userOwned cfg annotations' key = userOwned cfg annotations key := by
  rw [Bool.eq_iff_iff, userOwned_eq_true_iff, userOwned_eq_true_iff, Dict.mem_keys_iff,
    Dict.mem_keys_iff, hkey, htracking]

/-- Whose an external-dns annotation is does not change with what a pass wants of the mux. -/
theorem userOwned_of_same_desired {annotations annotations' aggregated : Dict String String}
    {texts : GeneratedTexts}
    (h : annotations'.Same (desiredMuxAnnotations cfg annotations aggregated texts)) {key : String}
    (hkey : key ∈ aggregatedExternalDnsAnnotations) :
    userOwned cfg annotations' key = userOwned cfg annotations key := by
  have hdesired : ∀ k, k ∈ aggregatedExternalDnsAnnotations ∨
      k = cfg.annotationExternalDnsAggregated → annotations'.get k =
        (applyAggregatedExternalDnsAnnotations cfg annotations aggregated).get k := fun k hk =>
    (h k).trans (get_desired_of_notMem (mem_generated_ne hk))
  rw [userOwned_congr (hdesired key (Or.inl hkey)) (hdesired _ (Or.inr rfl)),
    userOwned_applyAggregated _ _ hkey]

theorem mem_keys_desired_congr (annotations aggregated : Dict String String)
    (texts texts' : GeneratedTexts) (key : String) :
    key ∈ (desiredMuxAnnotations cfg annotations aggregated texts).keys ↔
      key ∈ (desiredMuxAnnotations cfg annotations aggregated texts').keys := by
  rw [← not_iff_not, ← Dict.get_eq_none_iff, ← Dict.get_eq_none_iff]
  simp only [desiredMuxAnnotations, Dict.get_set]
  split_ifs <;> simp

/-- A patch reaches what was desired from every state without keys that it does not name. -/
theorem same_mergePatch_of_subset {live current desired : Dict String String}
    (h : ∀ key, key ∉ current.keys → key ∉ desired.keys → live.get key = none) :
    (live.mergePatch (current.patchTo desired)).Same desired := by
  intro key
  rw [Dict.get_mergePatch, Dict.get_patchTo]
  split_ifs with hkey
  · rfl
  · obtain ⟨hcurrent, hdesired⟩ := not_or.mp hkey
    rw [Option.getD_none, h key hcurrent hdesired, (Dict.get_eq_none_iff _ _).mpr hdesired]

/-! ## One iteration -/

theorem muxPorts_nonempty {input : PassInput} {p : PassResult} (hpass : muxPass cfg input = .ok p) :
    p.muxPorts.Nonempty := by
  obtain ⟨start, -, -, hmux, -⟩ := muxPass_eq_ok hpass
  rw [hmux, buildMuxPorts]
  split_ifs with hempty
  · exact Finset.singleton_nonempty _
  · obtain ⟨m, hm⟩ := Finset.nonempty_iff_ne_empty.mpr hempty
    obtain ⟨hlength, -⟩ := (collected_of_reaches (passReaches_of_muxPass hpass)).owned m hm
    refine ⟨m, Finset.mem_filter.mpr ⟨hm, fun hname => ?_⟩⟩
    rw [hname] at hlength
    exact absurd hlength (by decide)

/-- An iteration accepts a channel of this name at these ports. -/
def AcceptedAt (cfg : Config) (s : Surroundings) (cluster : Cluster) (key : String × String)
    (resolved : List ResolvedPort) : Prop :=
  ∃ c t t', c.key = key ∧ PassMeets cfg (cluster.passInput s) c t ∧
    channelStep cfg (cluster.mux.namespace_, cluster.mux.name) (muxPortLimit cfg cluster.mux).1 t c =
      .ok (t', .accepted resolved)

section Requests

variable {s : Surroundings} {cluster : Cluster} {done : List Request}
  (hdone : done ⊆ (iteration cfg s cluster).emitted)

include hdone

theorem muxAnnotations_of_requests :
    (cluster.applyAll cfg done).mux.annotations = cluster.mux.annotations ∨
      ∃ texts, (cluster.applyAll cfg done).mux.annotations.Same
        (desiredMuxAnnotations cfg cluster.mux.annotations
          (aggregateExternalDnsAnnotations cfg (sortChannels (cluster.passInput s).channels))
          texts) := by
  refine applyAll_of_caused hdone (fun current =>
    current.mux.annotations = cluster.mux.annotations ∨ ∃ texts, current.mux.annotations.Same
      (desiredMuxAnnotations cfg cluster.mux.annotations
        (aggregateExternalDnsAnnotations cfg (sortChannels (cluster.passInput s).channels)) texts))
    (Or.inl rfl) ?_
  intro current request hcause hcurrent
  cases hcause with
  | @muxAnnotations _ texts patch hpass hpatch =>
    refine Or.inr ⟨texts, ?_⟩
    unfold muxPatch at hpatch
    split_ifs at hpatch
    obtain rfl := Option.some.inj hpatch
    refine same_mergePatch_of_subset fun key hkey hdesired => ?_
    obtain hsame | ⟨texts', hsame⟩ := hcurrent
    · rw [hsame]
      exact (Dict.get_eq_none_iff _ _).mpr hkey
    · rw [hsame, Dict.get_eq_none_iff]
      exact fun hmem => hdesired ((mem_keys_desired_congr _ _ texts' texts key).mp hmem)
  | _ => exact hcurrent

theorem ports_of_requests :
    (cluster.applyAll cfg done).mux.ports = cluster.mux.ports ∨
      (cluster.applyAll cfg done).mux.ports ≠ [] := by
  refine applyAll_of_caused hdone (fun current => current.mux.ports = cluster.mux.ports ∨
    current.mux.ports ≠ []) (Or.inl rfl) ?_
  intro current request hcause hcurrent
  cases hcause with
  | muxPorts hpass =>
    obtain ⟨m, hm⟩ := muxPorts_nonempty hpass
    have hwritten := (s.order.mem_toList _ m).mpr hm
    exact Or.inr (List.ne_nil_of_mem (List.mem_map_of_mem hwritten))
  | _ => exact hcurrent

theorem sameSpecs_of_requests :
    List.Forall₂ (SameSpec cfg) cluster.channels (cluster.applyAll cfg done).channels := by
  refine applyAll_of_caused hdone (fun current =>
    List.Forall₂ (SameSpec cfg) cluster.channels current.channels)
    (List.forall₂_same.mpr fun c _ => sameSpec_refl c) ?_
  intro current request hcause hcurrent
  cases hcause with
  | channelPorts hmeets hstep hchanged =>
    exact List.forall₂_map_right_iff.mpr
      (hcurrent.imp fun c d hspec => sameSpec_patchedChannel hspec _ _)
  | _ => exact hcurrent

theorem told_of_requests : ∀ d ∈ (cluster.applyAll cfg done).channels, d ∈ cluster.channels ∨
    ∃ resolved, AcceptedAt cfg s cluster d.key resolved ∧
      d.annotations.get cfg.annotationPorts = some (portsAnnotationOf resolved) := by
  refine applyAll_of_caused hdone (fun current => ∀ d ∈ current.channels, d ∈ cluster.channels ∨
    ∃ resolved, AcceptedAt cfg s cluster d.key resolved ∧
      d.annotations.get cfg.annotationPorts = some (portsAnnotationOf resolved))
    (fun d hd => Or.inl hd) ?_
  intro current request hcause hcurrent
  cases hcause with
  | @channelPorts c t t' resolved hmeets hstep hchanged =>
    intro d hd
    obtain ⟨d', hd', rfl⟩ := List.mem_map.mp hd
    unfold patchedChannel
    split_ifs with hkey
    · exact Or.inr ⟨resolved, ⟨c, t, t', hkey.symm, hmeets, hstep⟩, Dict.get_set_self _ _ _⟩
    · exact hcurrent d' hd'
  | _ => exact hcurrent

theorem channelStatus_of_requests : ∀ key ∉ cluster.channels.map Channel.key,
    (cluster.applyAll cfg done).channelStatus.get key = cluster.channelStatus.get key := by
  refine applyAll_of_caused hdone (fun current => ∀ key ∉ cluster.channels.map Channel.key,
    current.channelStatus.get key = cluster.channelStatus.get key) (fun _ _ => rfl) ?_
  intro current request hcause hcurrent key hkey
  cases hcause with
  | @channelStatus c t t' resolved hmeets hstep hchanged =>
    refine (Dict.get_write _ _ _).trans ((if_neg ?_).trans (hcurrent key hkey))
    rintro rfl
    exact hkey (List.mem_map_of_mem ((s.index.perm _).mem_iff.mp (mem_channels_of_meets hmeets)))
  | _ => exact hcurrent key hkey

theorem configmap_of_unreadable
    (h : ∃ error, (muxStore cfg cluster.mux).load cluster.configmap = .error error) :
    (cluster.applyAll cfg done).configmap = cluster.configmap := by
  obtain hsame | ⟨p, hpass, hsaved⟩ := configmap_of_requests hdone
  · exact hsame
  · obtain ⟨start, hstart, -, -, hconfigmap⟩ := muxPass_eq_ok hpass
    obtain ⟨e, he⟩ := started_of_passStart hstart
    obtain ⟨-, -, -, hstore⟩ | ⟨hload, -⟩ := he.loaded
    · rw [hsaved, hconfigmap, hstore]
      rfl
    · obtain ⟨error, herror⟩ := h
      exact absurd (herror.symm.trans hload) (by simp)

theorem configmap_of_readable
    (h : ∃ state, (muxStore cfg cluster.mux).load cluster.configmap = .ok state) :
    ∃ state, (muxStore cfg cluster.mux).load (cluster.applyAll cfg done).configmap = .ok state := by
  obtain hsame | ⟨p, hpass, hsaved⟩ := configmap_of_requests hdone
  · rwa [hsame]
  · obtain ⟨start, hstart, -, -, hconfigmap⟩ := muxPass_eq_ok hpass
    obtain ⟨e, he⟩ := started_of_passStart hstart
    rw [hsaved, hconfigmap, (@state_of_load cfg (cluster.admittedPass s) _ _ he h).2.2, savedConfigmap]
    split_ifs
    · exact ⟨_, ConfigMapAllocationStore.load_save _ _⟩
    · exact h

end Requests

/-! ## Runs -/

/-- What iterations make of a cluster leaves everything else alone. -/
structure OwnFieldsOnly (cfg : Config) (cluster later : Cluster) : Prop where
  mux : later.mux = { cluster.mux with
    annotations := later.mux.annotations
    ports := later.mux.ports }
  annotations : ∀ key, Foreign cfg cluster.mux.annotations key →
    later.mux.annotations.get key = cluster.mux.annotations.get key
  userOwned : ∀ key ∈ aggregatedExternalDnsAnnotations,
    userOwned cfg later.mux.annotations key = userOwned cfg cluster.mux.annotations key
  ports : later.mux.ports = cluster.mux.ports ∨ later.mux.ports ≠ []
  channels : List.Forall₂ (SameSpec cfg) cluster.channels later.channels
  channelStatus : ∀ key ∉ cluster.channels.map Channel.key,
    later.channelStatus.get key = cluster.channelStatus.get key
  unreadable : (∃ error, (muxStore cfg cluster.mux).load cluster.configmap = .error error) →
    later.configmap = cluster.configmap
  readable : (∃ state, (muxStore cfg cluster.mux).load cluster.configmap = .ok state) →
    ∃ state, (muxStore cfg later.mux).load later.configmap = .ok state

theorem muxStore_of_ownFields {cluster later : Cluster} (h : OwnFieldsOnly cfg cluster later) :
    muxStore cfg later.mux = muxStore cfg cluster.mux :=
  (settings_eq (by rw [h.mux]) (by rw [h.mux])
    fun key hkey => h.annotations key (foreign_of_settings hkey)).1

theorem ownFieldsOnly_refl (cluster : Cluster) : OwnFieldsOnly cfg cluster cluster :=
  ⟨rfl, fun _ _ => rfl, fun _ _ => rfl, Or.inl rfl, List.forall₂_same.mpr fun c _ => sameSpec_refl c,
    fun _ _ => rfl, fun _ => rfl, id⟩

theorem sameSpec_trans {c d e : Channel} (h : SameSpec cfg c d) (h' : SameSpec cfg d e) :
    SameSpec cfg c e :=
  ⟨h'.key.trans h.key, h'.ports.trans h.ports,
    fun key hkey => (h'.annotations key hkey).trans (h.annotations key hkey)⟩

theorem sameSpecs_trans {cs ds es : List Channel} (h : List.Forall₂ (SameSpec cfg) cs ds)
    (h' : List.Forall₂ (SameSpec cfg) ds es) : List.Forall₂ (SameSpec cfg) cs es := by
  induction h generalizing es with
  | nil => exact h'
  | cons hspec _ ih =>
    cases h' with
    | cons hspec' hrest => exact .cons (sameSpec_trans hspec hspec') (ih hrest)

theorem foreign_of_ownFields {cluster later : Cluster} (h : OwnFieldsOnly cfg cluster later)
    {key : String} (hkey : Foreign cfg cluster.mux.annotations key) :
    Foreign cfg later.mux.annotations key :=
  ⟨hkey.1, fun hdns => (h.userOwned key hdns).trans (hkey.2 hdns)⟩

theorem keys_of_ownFields {cluster later : Cluster} (h : OwnFieldsOnly cfg cluster later) :
    later.channels.map Channel.key = cluster.channels.map Channel.key := by
  have hkeys : List.Forall₂ (fun c d : Channel => c.key = d.key) cluster.channels later.channels :=
    h.channels.imp fun c d hspec => hspec.key.symm
  rw [← List.forall₂_eq_eq_eq, List.forall₂_map_left_iff, List.forall₂_map_right_iff]
  exact hkeys.flip.imp fun c d hkey => hkey.symm

theorem ownFieldsOnly_trans {cluster mid later : Cluster} (h : OwnFieldsOnly cfg cluster mid)
    (h' : OwnFieldsOnly cfg mid later) : OwnFieldsOnly cfg cluster later := by
  have hstore := muxStore_of_ownFields h
  refine ⟨?_, fun key hkey => ?_, fun key hkey => ?_, ?_, ?_, fun key hkey => ?_, ?_, ?_⟩
  · rw [h'.mux, h.mux]
  · exact (h'.annotations key (foreign_of_ownFields h hkey)).trans (h.annotations key hkey)
  · exact (h'.userOwned key hkey).trans (h.userOwned key hkey)
  · obtain hports | hports := h'.ports
    · rw [hports]
      exact h.ports
    · exact Or.inr hports
  · exact sameSpecs_trans h.channels h'.channels
  · rw [h'.channelStatus key (keys_of_ownFields h ▸ hkey), h.channelStatus key hkey]
  · intro hunreadable
    have hsame := h.unreadable hunreadable
    rw [h'.unreadable (by rwa [hstore, hsame]), hsame]
  · exact fun hreadable => h'.readable (h.readable hreadable)

inductive Interruption (cfg : Config) : Cluster → Cluster → Prop
  | iteration {cluster : Cluster} {s : Surroundings} {done : List Request}
      (hdone : done ⊆ (iteration cfg s cluster).emitted) :
      Interruption cfg cluster (cluster.applyAll cfg done)

theorem ownFieldsOnly_of_interruption {cluster later : Cluster}
    (h : Interruption cfg cluster later) : OwnFieldsOnly cfg cluster later := by
  obtain @⟨s, done, hdone⟩ := h
  have hmux := mux_applyAll cfg cluster done
  have hannotations : ∀ key, Foreign cfg cluster.mux.annotations key →
      (cluster.applyAll cfg done).mux.annotations.get key = cluster.mux.annotations.get key := by
    intro key hkey
    obtain hsame | ⟨texts, hsame⟩ := muxAnnotations_of_requests hdone
    · rw [hsame]
    · rw [hsame key, get_desiredMuxAnnotations texts hkey]
  have hstore : muxStore cfg (cluster.applyAll cfg done).mux = muxStore cfg cluster.mux :=
    (settings_eq (by rw [hmux]) (by rw [hmux])
      fun key hkey => hannotations key (foreign_of_settings hkey)).1
  refine ⟨hmux, hannotations, fun key hkey => ?_, ports_of_requests hdone,
    sameSpecs_of_requests hdone, channelStatus_of_requests hdone, configmap_of_unreadable hdone,
    fun hreadable => ?_⟩
  · obtain hsame | ⟨texts, hsame⟩ := muxAnnotations_of_requests hdone
    · rw [hsame]
    · exact userOwned_of_same_desired hsame hkey
  · rw [hstore]
    exact configmap_of_readable hdone hreadable

/-- Over any number of iterations, cut short or not, the controller writes to its own fields only:
annotations of the mux that are its own, the mux ports, which it does not take away, the `ports`
annotation of a channel, only to tell it the ports at which an iteration has accepted it, the status
of channels, and a ConfigMap that it can read. -/
theorem controller_writes_own_fields (cfg : Config) (cluster later : Cluster)
    (hrun : Relation.ReflTransGen (Interruption cfg) cluster later) :
    OwnFieldsOnly cfg cluster later ∧
      ∀ d ∈ later.channels, d ∈ cluster.channels ∨
        ∃ mid s resolved, Relation.ReflTransGen (Interruption cfg) cluster mid ∧
          AcceptedAt cfg s mid d.key resolved ∧
          d.annotations.get cfg.annotationPorts = some (portsAnnotationOf resolved) := by
  induction hrun with
  | refl => exact ⟨ownFieldsOnly_refl cluster, fun d hd => Or.inl hd⟩
  | @tail mid later hmid hstep ih =>
    obtain ⟨hown, htold⟩ := ih
    refine ⟨ownFieldsOnly_trans hown (ownFieldsOnly_of_interruption hstep), fun d hd => ?_⟩
    obtain @⟨s, done, hdone⟩ := hstep
    obtain hd | ⟨resolved, haccepted, hports⟩ := told_of_requests hdone d hd
    · exact htold d hd
    · exact Or.inr ⟨mid, s, resolved, hmid, haccepted, hports⟩

/-- The first iteration is cut short after three requests. -/
theorem controller_writes_own_fields_sampleCluster :
    let emitted := (iteration sampleConfig (sampleSurroundings Dict.empty) sampleCluster).emitted
    let later := sampleCluster.applyAll sampleConfig (emitted.take 3)
    OwnFieldsOnly sampleConfig sampleCluster later ∧
      ∀ d ∈ later.channels, d ∈ sampleCluster.channels ∨
        ∃ mid s resolved, Relation.ReflTransGen (Interruption sampleConfig) sampleCluster mid ∧
          AcceptedAt sampleConfig s mid d.key resolved ∧
          d.annotations.get sampleConfig.annotationPorts = some (portsAnnotationOf resolved) :=
  controller_writes_own_fields sampleConfig sampleCluster _
    (.single (.iteration (List.take_subset 3 _)))

end SvcLbMux
