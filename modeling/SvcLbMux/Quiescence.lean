import SvcLbMux.Writes

namespace SvcLbMux

open Py

variable {cfg : Config}

/-! ## Annotations that a patch has reached -/

section Annotations

variable {current current' aggregated : Dict String String} {texts : GeneratedTexts}

theorem get_applyAggregated_congr
    (h : ∀ key, key ∈ aggregatedExternalDnsAnnotations ∨ key = cfg.annotationExternalDnsAggregated →
      current'.get key = current.get key) {key : String}
    (hkey : current'.get key = current.get key) :
    (applyAggregatedExternalDnsAnnotations cfg current' aggregated).get key =
      (applyAggregatedExternalDnsAnnotations cfg current aggregated).get key := by
  have howned : ∀ k ∈ aggregatedExternalDnsAnnotations,
      userOwned cfg current' k = userOwned cfg current k := by
    intro k hk
    rw [Bool.eq_iff_iff, userOwned_eq_true_iff, userOwned_eq_true_iff, Dict.mem_keys_iff,
      Dict.mem_keys_iff, h k (Or.inl hk), h _ (Or.inr rfl)]
  have hpublished : publishedKeys cfg current' aggregated = publishedKeys cfg current aggregated :=
    List.filter_congr fun k hk => by rw [howned k hk]
  rw [get_applyAggregated, get_applyAggregated, hpublished, hkey]
  by_cases hdns : key ∈ aggregatedExternalDnsAnnotations
  · rw [howned key hdns]
  · simp [hdns]

theorem get_desired_of_mem {key : String}
    (h : key ∈ [cfg.annotationChannels, cfg.annotationTopology, cfg.annotationSummary]) :
    (desiredMuxAnnotations cfg current aggregated texts).get key =
      (desiredMuxAnnotations cfg current' aggregated texts).get key := by
  have hgenerated : ∀ current, (desiredMuxAnnotations cfg current aggregated texts).get key =
      if cfg.annotationSummary = key then some texts.summary
      else if cfg.annotationTopology = key then some texts.topology
      else some texts.channels := by
    intro current
    rw [desiredMuxAnnotations, Dict.get_set, Dict.get_set, Dict.get_set]
    simp only [List.mem_cons, List.not_mem_nil, or_false] at h
    split_ifs with hsummary htopology hchannels
    · rfl
    · rfl
    · rfl
    · obtain h | h | h := h
      · exact absurd h.symm hchannels
      · exact absurd h.symm htopology
      · exact absurd h.symm hsummary
  rw [hgenerated, hgenerated]

theorem mem_generated_ne {key : String} (h : key ∈ aggregatedExternalDnsAnnotations ∨
    key = cfg.annotationExternalDnsAggregated) :
    key ∉ [cfg.annotationChannels, cfg.annotationTopology, cfg.annotationSummary] := by
  intro hmem
  obtain ⟨name, hname, rfl⟩ : ∃ name ∈ ["channels", "topology", "summary"],
      cfg.annotationKey name = key := List.mem_map.mp hmem
  rcases h with h | h
  · have hsuffix : ∀ name ∈ ["channels", "topology", "summary"],
        ∀ key ∈ aggregatedExternalDnsAnnotations, ¬ name.toList <:+ key.toList := by decide +kernel
    exact annotationKey_ne (hsuffix name hname _ h) rfl
  · have hne : "aggregated-external-dns" ∉ ["channels", "topology", "summary"] := by decide
    exact hne (cfg.annotationKey_injective h ▸ hname)

/-- A mux that carries what a pass has desired is what the same pass desires again. -/
theorem desired_again (h : current'.Same (desiredMuxAnnotations cfg current aggregated texts)) :
    current'.Same (desiredMuxAnnotations cfg current' aggregated texts) := by
  intro key
  by_cases hkey : key ∈ [cfg.annotationChannels, cfg.annotationTopology, cfg.annotationSummary]
  · rw [h key, get_desired_of_mem hkey]
  · have hdns : ∀ k, k ∈ aggregatedExternalDnsAnnotations ∨ k = cfg.annotationExternalDnsAggregated →
        current'.get k =
          (applyAggregatedExternalDnsAnnotations cfg current aggregated).get k := fun k hk =>
      (h k).trans (get_desired_of_notMem (mem_generated_ne hk))
    have hsame := (h key).trans (get_desired_of_notMem hkey)
    rw [get_desired_of_notMem hkey, get_applyAggregated_congr hdns hsame,
      applyAggregated_again current aggregated aggregated key, hsame]

end Annotations

/-! ## Claims that are not written -/

/-- Two passes that find the same claims, channels and mux ports start with the same ports held. -/
theorem heldPorts_of_unchanged {input next : AdmittedPass} {r : PassResult}
    {start start' : PassStart} (hready : Ready cfg input)
    (hpass : muxPass cfg input.toPassInput = .ok r)
    (hfollows : Follows cfg input.toPassInput r next.toPassInput)
    (hstart : passStart cfg input.toPassInput = .ok start)
    (hstart' : passStart cfg next.toPassInput = .ok start')
    (hchannels : sortChannels next.channels = sortChannels input.channels)
    (hports : oldMuxPorts input.mux.ports = .ok r.muxPorts)
    (hconfigmap : next.configmap = input.configmap) (channels : List Channel) :
    heldPorts cfg channels start'.loop.muxState = heldPorts cfg channels start.loop.muxState := by
  obtain ⟨e, he⟩ := started_of_passStart hstart
  obtain ⟨e', he'⟩ := started_of_passStart hstart'
  obtain ⟨hload, hranges, -⟩ := state_of_load he hready.load
  obtain ⟨hload', hranges', -⟩ := state_of_load he' (ready_next hready hpass hfollows).load
  rw [hfollows.store, hconfigmap, hload] at hload'
  have hstate : e.state = e'.state := Except.ok.inj hload'
  rw [he.loop, he'.loop]
  refine heldPorts_congr (fun key => ?_) ?_ ?_ fun key => ?_
  · change (e'.muxState next.toPassInput).claims.get key = (e.muxState input.toPassInput).claims.get key
    rw [StartEvidence.muxState, StartEvidence.muxState, ← hstate, hchannels]
    rfl
  · change e'.ranges = e.ranges
    rw [hranges, hranges', hfollows.ranges]
  · change e'.reservedPorts = e.reservedPorts
    have hreserved := he'.reserved
    rw [hchannels, he.reserved] at hreserved
    exact (Except.ok.inj hreserved).symm
  · change e'.recovered.get key = e.recovered.get key
    have hold : r.muxPorts = e.oldPorts := Except.ok.inj (hports.symm.trans he.oldPorts)
    have hold' : r.muxPorts = e'.oldPorts := Except.ok.inj (hfollows.muxPorts.symm.trans he'.oldPorts)
    have hrecovered := he'.recovered
    rw [hchannels] at hrecovered
    refine get_collectExistingPortOwners_congr hrecovered he.recovered (fun m => ?_)
      (fun m hm m' hm' => ?_) key
    · rw [next.order.mem_toList, input.order.mem_toList, ← hold, ← hold']
    · rw [next.order.mem_toList, ← hold'] at hm hm'
      exact eq_of_key_eq_of_muxPorts hpass hm hm'

theorem configmap_written {input : AdmittedPass} {r : PassResult} (hready : Ready cfg input)
    (hpass : muxPass cfg input.toPassInput = .ok r) : r.configmap.isNone = false := by
  obtain ⟨start, hstart, -, -, hconfigmap⟩ := muxPass_eq_ok hpass
  obtain ⟨e, he⟩ := started_of_passStart hstart
  rw [hconfigmap, (state_of_load he hready.load).2.2, savedConfigmap]
  split_ifs with hsave
  · rfl
  · exact (Bool.or_eq_false_iff.mp (Bool.eq_false_iff.mpr hsave)).2

/-! ## Runs that nobody interferes with -/

/-- Whole iterations, one over what the other has left. Who the mux is, its labels and its load
balancer, and the Endpoints and the node ports of the channels do not change, and the Endpoints of the
mux are cached as they are. The index yields the channels in any order. -/
structure ClosedRun (cfg : Config) (clusters : ℕ → Cluster) (s : ℕ → Surroundings)
    (outs : ℕ → PassOutputs) : Prop where
  ready : Ready cfg ((clusters 0).admittedPass (s 0))
  dryrunMode : ∀ t, (s t).dryrunMode = false
  ends : ∀ t, (iteration cfg (s t) (clusters t)).outcome = .ok (outs t)
  next : ∀ t, clusters (t + 1) =
    (clusters t).applyAll cfg (iteration cfg (s t) (clusters t)).emitted
  muxLabels : ∀ t, (s t).muxLabels = (s 0).muxLabels
  statusLb : ∀ t, (s t).statusLb = (s 0).statusLb
  nodePort : ∀ t, (s t).nodePort = (s 0).nodePort
  channelEndpoints : ∀ t, ∀ c ∈ (clusters t).channels,
    (s t).memoEndpoints.get c.key = (s 0).memoEndpoints.get c.key
  muxEndpoints : ∀ t, (s t).memoEndpoints.get
    ((clusters t).mux.namespace_, (clusters t).mux.name) = (clusters t).endpoints

namespace ClosedRun

variable {clusters : ℕ → Cluster} {s : ℕ → Surroundings} {outs : ℕ → PassOutputs}
  (run : ClosedRun cfg clusters s outs)

include run

theorem pass (t : ℕ) : muxPass cfg ((clusters t).admittedPass (s t)).toPassInput =
    .ok (outs t).result.toPassResult := pass_of_iteration (run.ends t)

theorem follows (t : ℕ) : Follows cfg ((clusters t).admittedPass (s t)).toPassInput
    (outs t).result.toPassResult ((clusters (t + 1)).admittedPass (s (t + 1))).toPassInput := by
  have h := follows_of_iteration (run.dryrunMode t) (run.ends t) (s (t + 1))
  rwa [← run.next t] at h

theorem endingRun : EndingRun cfg (fun t => (clusters t).admittedPass (s t))
    fun t => (outs t).result.toPassResult := by
  refine ⟨fun t => ?_, run.pass, run.follows⟩
  induction t with
  | zero => exact run.ready
  | succ t ih => exact ready_next ih (run.pass t) (run.follows t)

theorem mux_key (t : ℕ) : ((clusters t).mux.namespace_, (clusters t).mux.name) =
    ((clusters 0).mux.namespace_, (clusters 0).mux.name) := by
  induction t with
  | zero => rfl
  | succ t ih =>
    rw [run.next t, mux_applyAll]
    exact ih

variable {N : ℕ} (hstable : NoMoreEstablished cfg (fun t => (clusters t).admittedPass (s t)) N)
  {t : ℕ} (ht : N ≤ t)

include hstable ht

theorem channels_unpatched :
    requestsTo .channels (iteration cfg (s t) (clusters t)).emitted = [] := by
  obtain ⟨-, -, -, -, -, -, -, hturns, -⟩ := requestsTo_iteration (run.ends t)
  rw [hturns]
  refine requestsTo_eq_nil fun request hrequest hpart => ?_
  obtain ⟨⟨c, outcome⟩, hreport, hrequest⟩ := List.mem_flatMap.mp hrequest
  cases outcome with
  | rejected rejection =>
    obtain rfl := List.mem_singleton.mp hrequest
    cases hpart
  | accepted served =>
    obtain ⟨explicitPorts, h⟩ := established_of_keys_eq (run.endingRun.ready t) (run.pass t)
      (run.follows t) (hstable.keys_succ ht) hreport
    rcases List.mem_append.mp (mem_unlessDryrun.mp hrequest).2 with hrequest | hrequest
    · rw [if_neg (not_not.mpr h.recorded)] at hrequest
      cases hrequest
    · split_ifs at hrequest
      · obtain rfl := List.mem_singleton.mp hrequest
        cases hpart
      · cases hrequest

theorem channels_succ : (clusters (t + 1)).channels = (clusters t).channels := by
  rw [run.next t, channels_applyAll, run.channels_unpatched hstable ht]
  rfl

theorem muxPorts_unpatched :
    requestsTo .muxPorts (iteration cfg (s (t + 1)) (clusters (t + 1))).emitted = [] := by
  obtain ⟨oldPorts, -, -, hports, -, -, -, -, -, -, -, hrequests, -⟩ :=
    requestsTo_iteration (run.ends (t + 1))
  have hsame : oldMuxPorts (clusters (t + 1)).mux.ports = .ok (outs (t + 1)).result.muxPorts :=
    run.endingRun.oldMuxPorts_succ hstable ht
  rw [hports] at hsame
  obtain rfl := Except.ok.inj hsame
  rw [hrequests, muxPortsRequests, if_neg (not_not.mpr rfl)]
  rfl

theorem configmap_unsaved {M : ℕ} (hM : ∀ t, M ≤ t →
      Unchanged ((clusters t).passInput (s t)) ((clusters (t + 1)).passInput (s (t + 1))))
    (hMt : M ≤ t + 1) :
    requestsTo .configmap (iteration cfg (s (t + 1)) (clusters (t + 1))).emitted = [] := by
  have hending := run.endingRun
  obtain ⟨-, start, -, -, hstart, -, -, -, -, hrequests, -⟩ := requestsTo_iteration (run.ends (t + 1))
  obtain ⟨-, start', -, -, hstart', -⟩ := requestsTo_iteration (run.ends (t + 2))
  have hunchanged := hM (t + 1) hMt
  have hsorted := @sortChannels_of_perm
    ((clusters (t + 1)).admittedPass (s (t + 1)))
    ((clusters (t + 2)).admittedPass (s (t + 2))) hunchanged.channels
  have hports := hending.oldMuxPorts_succ hstable ht
  -- The pass ends with the held ports that it has started with.
  have hheld : heldPorts cfg ((clusters (t + 1)).passInput (s (t + 1))).channels
      (outs (t + 1)).result.final.muxState =
        heldPorts cfg ((clusters (t + 1)).passInput (s (t + 1))).channels start.loop.muxState :=
    (heldPorts_next (hending.ready (t + 1)) (run.pass (t + 1)) (run.follows (t + 1)) hstart hstart'
      hsorted hports _).symm.trans
    (heldPorts_of_unchanged (hending.ready (t + 1)) (run.pass (t + 1)) (run.follows (t + 1)) hstart
      hstart' hsorted hports hunchanged.configmap _)
  have hsame : (outs (t + 1)).result.final.muxState = start.loop.muxState := by
    rcases (hending.gainsHeld_succ hstable ht hstart).gained with h | ⟨e, he, hnot⟩
    · exact h
    · exact absurd (hheld ▸ he) hnot
  have hclean : start.loop.muxState.changed = false :=
    (claims_next (hending.ready t) (run.pass t) (run.follows t) hstart).2
  have hsome : (clusters (t + 1)).configmap.isNone = false := by
    rw [show (clusters (t + 1)).configmap = (outs t).result.configmap from (run.follows t).configmap]
    exact configmap_written (hending.ready t) (run.pass t)
  rw [hrequests, saveRequests.eq_def, hsame, hclean, hsome]
  cases start.store <;> rfl

end ClosedRun

/-! ## The annotations of the mux -/

section Texts

variable {display : Display} {memoEndpoints memoEndpoints' : MemoEndpoints} {channels : List Channel}
  (h : ∀ c ∈ channels, memoEndpoints'.get c.key = memoEndpoints.get c.key)

include h

theorem readyPods_congr {c : Channel} (hc : c ∈ channels) :
    readyPods memoEndpoints' c = readyPods memoEndpoints c := by
  rw [readyPods, readyPods, cachedSubsets, cachedSubsets, h c hc]

theorem generatedTexts_congr (totalPorts : Nat) :
    generatedTexts cfg display memoEndpoints' channels totalPorts =
      generatedTexts cfg display memoEndpoints channels totalPorts := by
  have hcount : countReadyChannelPods memoEndpoints' channels =
      countReadyChannelPods memoEndpoints channels :=
    congrArg List.sum (List.map_congr_left fun c hc => readyPods_congr h hc)
  have htopology : ∀ muxDns,
      Annotations.formatTopologyAnnotation cfg display memoEndpoints' channels muxDns =
        Annotations.formatTopologyAnnotation cfg display memoEndpoints channels muxDns := by
    intro muxDns
    have hblocks : (sortChannels channels).mapM (channelTopology cfg display memoEndpoints' muxDns) =
        (sortChannels channels).mapM (channelTopology cfg display memoEndpoints muxDns) := by
      refine Loop.mapM_congr fun c hc => ?_
      rw [channelTopology, channelTopology, readyPods_congr h (mem_sortChannels.mp hc)]
    rw [Annotations.formatTopologyAnnotation, Annotations.formatTopologyAnnotation, hblocks, hcount]
  rw [generatedTexts, generatedTexts, htopology, hcount]

end Texts

namespace ClosedRun

variable {clusters : ℕ → Cluster} {s : ℕ → Surroundings} {outs : ℕ → PassOutputs}
  (run : ClosedRun cfg clusters s outs) {N : ℕ}
  (hstable : NoMoreEstablished cfg (fun t => (clusters t).admittedPass (s t)) N) {t : ℕ} (ht : N ≤ t)

include run hstable ht

theorem index_perm : ((clusters t).passInput (s t)).channels.Perm
    ((clusters (t + 1)).passInput (s (t + 1))).channels := by
  refine ((s t).index.perm _).trans (.trans ?_ ((s (t + 1)).index.perm _).symm)
  rw [run.channels_succ hstable ht]

theorem texts_succ {texts texts' : GeneratedTexts}
    (htexts : generatedTexts cfg (s t).display (s t).memoEndpoints
      ((clusters t).passInput (s t)).channels (outs t).result.final.ports.card = .ok texts)
    (htexts' : generatedTexts cfg (s (t + 1)).display (s (t + 1)).memoEndpoints
      ((clusters (t + 1)).passInput (s (t + 1))).channels
      (outs (t + 1)).result.final.ports.card = .ok texts') :
    texts' = { texts with
      channels := dumps (channelList ((clusters (t + 1)).passInput (s (t + 1))).channels) } := by
  have hdisplay : (s (t + 1)).display = (s t).display := by
    rw [Surroundings.display, Surroundings.display, run.statusLb (t + 1), run.nodePort (t + 1),
      ← run.statusLb t, ← run.nodePort t]
  have hports : (outs (t + 1)).result.final.ports = (outs t).result.final.ports :=
    (run.endingRun.same_choice hstable (ht.trans t.le_succ)).1.trans
      (run.endingRun.same_choice hstable ht).1.symm
  have hendpoints : ∀ c ∈ ((clusters (t + 1)).passInput (s (t + 1))).channels,
      (s (t + 1)).memoEndpoints.get c.key = (s t).memoEndpoints.get c.key := by
    intro c hc
    have hmem := ((s (t + 1)).index.perm _).mem_iff.mp hc
    rw [run.channelEndpoints (t + 1) c hmem, run.channelEndpoints t c]
    rwa [← run.channels_succ hstable ht]
  rw [hdisplay, hports, generatedTexts_congr hendpoints, @generatedTexts_index
    cfg _ _ ((clusters t).admittedPass (s t)) _ (run.index_perm hstable ht)] at htexts'
  change Except.map _ (generatedTexts cfg (s t).display (s t).memoEndpoints
    ((clusters t).passInput (s t)).channels _) = _ at htexts'
  rw [htexts] at htexts'
  exact (Except.ok.inj htexts').symm

theorem muxAnnotations_unpatched_iff :
    requestsTo .muxAnnotations (iteration cfg (s (t + 1)) (clusters (t + 1))).emitted = [] ↔
      ((clusters (t + 1)).passInput (s (t + 1))).channels =
        ((clusters t).passInput (s t)).channels := by
  obtain ⟨-, -, texts, -, -, htexts, hout, -⟩ := requestsTo_iteration (run.ends t)
  obtain ⟨-, -, texts', -, -, htexts', hout', -, -, -, hrequests, -⟩ :=
    requestsTo_iteration (run.ends (t + 1))
  have hperm := run.index_perm hstable ht
  obtain rfl := run.texts_succ hstable ht htexts htexts'
  have hchannels := channels_of_generatedTexts htexts
  have hsorted : sortChannels ((clusters (t + 1)).passInput (s (t + 1))).channels =
      sortChannels ((clusters t).passInput (s t)).channels :=
    @sortChannels_of_perm ((clusters t).admittedPass (s t))
      ((clusters (t + 1)).admittedPass (s (t + 1))) hperm.symm
  have hcurrent : (clusters (t + 1)).mux.annotations.Same (outs t).muxAnnotations := by
    rw [run.next t]
    exact muxAnnotations_iteration (run.dryrunMode t) (run.ends t)
  rw [hout] at hcurrent
  have hagain := desired_again hcurrent
  rw [hsorted] at hout'
  have hunpatched : requestsTo .muxAnnotations
        (iteration cfg (s (t + 1)) (clusters (t + 1))).emitted = [] ↔
      (clusters (t + 1)).mux.annotations.Same (outs (t + 1)).muxAnnotations := by
    rw [hrequests, muxAnnotationsRequests, muxPatch, ← Dict.same_iff]
    split_ifs with hsame
    · exact iff_of_true rfl hsame
    · simp [hsame, unlessDryrun, run.dryrunMode, requestsTo, Request.part]
  rw [hunpatched, hout']
  constructor
  · intro hsame
    have hkey := (hagain cfg.annotationChannels).symm.trans (hsame cfg.annotationChannels)
    rw [get_desiredMuxAnnotations_channels, get_desiredMuxAnnotations_channels, hchannels] at hkey
    exact @eq_of_dumps_channelList_eq ((clusters t).admittedPass (s t)) _ hperm
      (Option.some.inj hkey).symm
  · intro hsame
    rw [hsame, ← hchannels]
    exact hagain

end ClosedRun

/-! ## The Endpoints of the mux -/

section Covered

variable {desired desired' : DesiredEndpoints} {live : Endpoints}

theorem patches_congr (hlabels : desired'.labels = desired.labels)
    (hannotations : desired'.annotations = desired.annotations)
    (hroutes : routes desired'.subsets = routes desired.subsets) (live : Endpoints) :
    desired'.patches live = desired.patches live := by
  have hiff : desired'.patches live = false ↔ desired.patches live = false := by
    rw [DesiredEndpoints.patches, DesiredEndpoints.patches, endpointsChanged_eq_false_iff,
      endpointsChanged_eq_false_iff, hlabels, hannotations, hroutes]
  rwa [Bool.eq_iff_iff, ← not_iff_not, Bool.not_eq_true, Bool.not_eq_true]

theorem mem_keys_patched {live desired : Dict String String} {key : String} (h : key ∈ live.keys) :
    key ∈ (live.mergePatch (Dict.patchTo Dict.empty desired)).keys := by
  obtain ⟨value, hvalue⟩ := (Dict.mem_keys_iff _ _).mp h
  rw [Dict.mem_keys_iff, Dict.get_mergePatch, Dict.get_patchTo]
  split_ifs with hdesired
  · exact (Dict.mem_keys_iff _ _).mp (hdesired.resolve_left List.not_mem_nil)
  · exact ⟨value, hvalue⟩

theorem covers_of_covers_patched (h : desired.Covers (desired.patched live)) : desired.Covers live :=
  ⟨fun key hkey => h.1 key (mem_keys_patched hkey), fun key hkey => h.2 key (mem_keys_patched hkey)⟩

theorem patches_created : desired.patches desired.created = false :=
  (endpointsChanged_eq_false_iff _ _ _ _).mpr ⟨fun _ => rfl, fun _ => rfl, rfl⟩

theorem patches_after_eq_false_iff :
    desired.patches (desired.after live) = false ↔ desired.Covers (desired.after live) := by
  refine ⟨covered_of_not_patches, fun h => ?_⟩
  unfold DesiredEndpoints.after at h ⊢
  split_ifs at h ⊢ with hpatches
  · exact (patches_patched_eq_false_iff desired live).mpr (covers_of_covers_patched h)
  · exact Bool.eq_false_iff.mpr hpatches

theorem covers_ofPass_iff {muxLabels : Dict String String} {muxKey : String × String}
    {channels : List Channel} {subsets : List EndpointSubset} :
    (DesiredEndpoints.ofPass cfg muxLabels muxKey channels subsets).Covers live ↔
      MetadataCovered cfg muxLabels live := by
  refine and_congr (forall₂_congr fun key _ => ?_) (forall₂_congr fun key _ => or_congr_right ?_)
  · exact Dict.mem_keys_updateList _ _ _
  · exact (Dict.mem_keys_updateList _ _ _).trans (or_iff_right (List.not_mem_nil))

end Covered

/-- What an iteration wants the Endpoints of its mux to be. -/
def desiredEndpoints (cfg : Config) (s : Surroundings) (cluster : Cluster) (out : PassOutputs) :
    DesiredEndpoints :=
  .ofPass cfg s.muxLabels (cluster.mux.namespace_, cluster.mux.name) (cluster.passInput s).channels
    out.result.endpoints

section Iteration

variable {s : Surroundings} {cluster : Cluster} {out : PassOutputs}
  (hdryrun : s.dryrunMode = false) (h : (iteration cfg s cluster).outcome = .ok out)
  (hcached : s.memoEndpoints.get (cluster.mux.namespace_, cluster.mux.name) = cluster.endpoints)

include hdryrun h hcached

theorem endpoints_iteration :
    (cluster.applyAll cfg (iteration cfg s cluster).emitted).endpoints =
      some (match cluster.endpoints with
        | some live => (desiredEndpoints cfg s cluster out).after live
        | none => (desiredEndpoints cfg s cluster out).created) := by
  obtain ⟨-, -, -, -, -, -, -, -, -, -, -, -, hrequests⟩ := requestsTo_iteration h
  rw [endpoints_applyAll, hrequests]
  unfold endpointsRequests
  cases hlive : cluster.endpoints with
  | none => simp [unlessDryrun, hdryrun, requestsTo, Request.part, desiredEndpoints]
  | some live =>
    have hold : cachedMuxEndpoints s (cluster.mux.namespace_, cluster.mux.name) = live := by
      rw [cachedMuxEndpoints, hcached, hlive]
      rfl
    dsimp only
    rw [hold]
    unfold DesiredEndpoints.after desiredEndpoints
    split_ifs
    · simp [unlessDryrun, hdryrun, requestsTo, Request.part]
    · rfl

theorem endpoints_unpatched_iff {live : Endpoints} (hlive : cluster.endpoints = some live) :
    requestsTo .endpoints (iteration cfg s cluster).emitted = [] ↔
      (desiredEndpoints cfg s cluster out).patches live = false := by
  obtain ⟨-, -, -, -, -, -, -, -, -, -, -, -, hrequests⟩ := requestsTo_iteration h
  have hold : cachedMuxEndpoints s (cluster.mux.namespace_, cluster.mux.name) = live := by
    rw [cachedMuxEndpoints, hcached, hlive]
    rfl
  rw [hrequests, hlive]
  unfold endpointsRequests desiredEndpoints
  dsimp only
  rw [hold]
  split_ifs with hpatches
  · simp [unlessDryrun, hdryrun, requestsTo, Request.part, hpatches]
  · exact iff_of_true rfl (Bool.eq_false_iff.mpr hpatches)

end Iteration

namespace ClosedRun

variable {clusters : ℕ → Cluster} {s : ℕ → Surroundings} {outs : ℕ → PassOutputs}
  (run : ClosedRun cfg clusters s outs) {N : ℕ}
  (hstable : NoMoreEstablished cfg (fun t => (clusters t).admittedPass (s t)) N) {t : ℕ} (ht : N ≤ t)

include run

theorem mem_endpoints (t : ℕ) (subset : EndpointSubset) :
    subset ∈ (outs t).result.endpoints ↔ ∃ c resolved chEndpoints,
      (c, Outcome.accepted resolved) ∈ (outs t).result.reports ∧
      collectChannelEndpoints cfg c (s t).memoEndpoints = .ok chEndpoints ∧
      subset ∈ chEndpoints := by
  have h := run.ends t
  rw [outcome_iteration] at h
  obtain ⟨hiteration, -⟩ := passOutputs_eq_ok h
  obtain ⟨-, hreconcile⟩ := daemonIteration_eq_ok_iff.mp hiteration
  obtain ⟨start, final, -, hrun, -, hendpoints, -⟩ := reconcileChannels_eq_ok hreconcile
  rw [← hendpoints]
  exact mem_endpoints_run rfl hrun subset

include hstable ht

theorem mem_endpoints_succ (subset : EndpointSubset) :
    subset ∈ (outs (t + 1)).result.endpoints ↔ subset ∈ (outs t).result.endpoints := by
  rw [run.mem_endpoints, run.mem_endpoints]
  refine exists_congr fun c => exists_congr fun resolved => exists_congr fun chEndpoints => ?_
  have hreport : (c, Outcome.accepted resolved) ∈ (outs (t + 1)).result.reports ↔
      (c, Outcome.accepted resolved) ∈ (outs t).result.reports :=
    ((run.endingRun.same_choice hstable (ht.trans t.le_succ)).2 c resolved).trans
      ((run.endingRun.same_choice hstable ht).2 c resolved).symm
  rw [hreport]
  refine and_congr_right fun hmem => ?_
  have hc : c ∈ (clusters t).channels := ((s t).index.perm _).mem_iff.mp
    (((clusters t).admittedPass (s t)).mem_channels_of_mem_reports (run.pass t) hmem)
  have hget : (s (t + 1)).memoEndpoints.get c.key = (s t).memoEndpoints.get c.key := by
    rw [run.channelEndpoints (t + 1) c (run.channels_succ hstable ht ▸ hc),
      run.channelEndpoints t c hc]
  rw [collectChannelEndpoints, collectChannelEndpoints, hget]

theorem patches_succ (live : Endpoints) :
    (desiredEndpoints cfg (s (t + 1)) (clusters (t + 1)) (outs (t + 1))).patches live =
      (desiredEndpoints cfg (s t) (clusters t) (outs t)).patches live := by
  refine patches_congr ?_ ?_ ?_ live
  · change (s (t + 1)).muxLabels.update _ = (s t).muxLabels.update _
    rw [run.muxLabels (t + 1), ← run.muxLabels t]
  · have hsorted : sortChannels ((clusters (t + 1)).passInput (s (t + 1))).channels =
        sortChannels ((clusters t).passInput (s t)).channels :=
      @sortChannels_of_perm ((clusters t).admittedPass (s t))
        ((clusters (t + 1)).admittedPass (s (t + 1))) (run.index_perm hstable ht).symm
    change generatedAnnotations cfg ((clusters (t + 1)).mux.namespace_, (clusters (t + 1)).mux.name) _ =
      generatedAnnotations cfg ((clusters t).mux.namespace_, (clusters t).mux.name) _
    rw [generatedAnnotations, generatedAnnotations, channelRefs, channelRefs, hsorted,
      run.mux_key (t + 1), ← run.mux_key t]
  · ext route
    refine exists_congr fun subset => and_congr_left fun _ => ?_
    exact run.mem_endpoints_succ hstable ht subset

/-- The Endpoints of the mux are patched again and again, if they carry what is to go. -/
theorem endpoints_unpatched_iff {live : Endpoints} (hlive : (clusters (t + 1)).endpoints = some live) :
    requestsTo .endpoints (iteration cfg (s (t + 1)) (clusters (t + 1))).emitted = [] ↔
      MetadataCovered cfg (s 0).muxLabels live := by
  rw [SvcLbMux.endpoints_unpatched_iff (run.dryrunMode _) (run.ends _) (run.muxEndpoints _) hlive,
    run.patches_succ hstable ht, ← run.muxLabels t]
  rw [run.next t, endpoints_iteration (run.dryrunMode t) (run.ends t) (run.muxEndpoints t),
    Option.some.injEq] at hlive
  have hcovers : (desiredEndpoints cfg (s t) (clusters t) (outs t)).Covers live ↔
      MetadataCovered cfg (s t).muxLabels live := covers_ofPass_iff
  rw [← hcovers, ← hlive]
  cases (clusters t).endpoints with
  | some before => exact patches_after_eq_false_iff
  | none => exact iff_of_true patches_created (covered_of_not_patches patches_created)

end ClosedRun

/-! ## The status of the channels -/

/-- A merge patch can make this load balancer of a channel the wanted one: it cannot take a list of
ingress points away, and it cannot write `null`. -/
def StatusReachable (statusLb : Option LoadBalancer) (live : LoadBalancer) : Prop :=
  ∃ lb, statusLb = some lb ∧ (lb.ingress = none → live.ingress = none)

/-- The load balancer of a channel after an iteration that has accepted it. -/
def statusAfter (statusLb : Option LoadBalancer) (live : LoadBalancer) : LoadBalancer :=
  if some live ≠ statusLb then (LoadBalancer.mergePatch (some live) statusLb).getD ⟨none⟩ else live

theorem statusAfter_eq_iff (statusLb : Option LoadBalancer) (live : LoadBalancer) :
    some (statusAfter statusLb live) = statusLb ↔
      StatusReachable statusLb (statusAfter statusLb live) := by
  constructor
  · intro h
    exact ⟨_, h.symm, fun hnone => hnone⟩
  · rintro ⟨lb, rfl, hreach⟩
    unfold statusAfter at hreach ⊢
    split_ifs at hreach ⊢ with hsame
    · simp only [LoadBalancer.mergePatch, Option.getD_some, Option.bind_some, Option.some.injEq] at hreach ⊢
      cases hingress : lb.ingress with
      | some ingress =>
        rw [Option.some_or, ← hingress]
      | none =>
        rw [hingress, Option.none_or] at hreach
        rw [Option.none_or, hreach rfl, ← hingress]
    · exact not_not.mp hsame

def Request.onStatusOf (key : String × String) : Request → Bool
  | .patchChannelStatus channel _ => channel = key
  | _ => false

section Status

variable {s : Surroundings} {cluster : Cluster} {out : PassOutputs}

theorem get_channelStatus_applyAll (key : String × String) (requests : List Request) :
    (cluster.applyAll cfg requests).channelStatus.get key =
      (requests.filter (Request.onStatusOf key)).foldl (fun live request => match request with
        | .patchChannelStatus _ statusLb => LoadBalancer.mergePatch live statusLb
        | _ => live) (cluster.channelStatus.get key) := by
  refine Loop.foldl_component (fun cluster : Cluster => cluster.channelStatus.get key) _ _
    (fun cluster request h => ?_) (fun cluster request h => ?_) requests cluster
  · cases request with
    | patchChannelStatus channel statusLb =>
      obtain rfl : channel = key := by simpa [Request.onStatusOf] using h
      exact (Dict.get_write _ _ _).trans (if_pos rfl)
    | _ => cases h
  · cases request with
    | patchChannelStatus channel statusLb =>
      have hne : channel ≠ key := by simpa [Request.onStatusOf] using h
      exact (Dict.get_write _ _ _).trans (if_neg hne)
    | _ => rfl

theorem filter_onStatusOf {reports : List (Channel × Outcome)}
    (hnodup : (reports.map fun report => report.1.key).Nodup) {report : Channel × Outcome}
    (hreport : report ∈ reports) :
    (reports.flatMap (turnRequests cfg s cluster)).filter (Request.onStatusOf report.1.key) =
      (turnRequests cfg s cluster report).filter (Request.onStatusOf report.1.key) := by
  have hother : ∀ other : Channel × Outcome, other.1.key ≠ report.1.key →
      (turnRequests cfg s cluster other).filter (Request.onStatusOf report.1.key) = [] := by
    rintro ⟨d, outcome⟩ hne
    rw [List.filter_eq_nil_iff]
    intro request hrequest
    cases outcome with
    | rejected rejection =>
      obtain rfl := List.mem_singleton.mp hrequest
      simp [Request.onStatusOf]
    | accepted resolved =>
      rcases List.mem_append.mp (mem_unlessDryrun.mp hrequest).2 with hrequest | hrequest
      all_goals
        split_ifs at hrequest
        · obtain rfl := List.mem_singleton.mp hrequest
          simp [Request.onStatusOf, hne]
        · cases hrequest
  have hothers : ∀ reports : List (Channel × Outcome),
      (∀ other ∈ reports, other.1.key ≠ report.1.key) →
      (reports.flatMap (turnRequests cfg s cluster)).filter (Request.onStatusOf report.1.key) = [] := by
    intro reports hne
    rw [List.filter_flatMap, List.flatMap_eq_nil_iff]
    exact fun other hmem => hother other (hne other hmem)
  obtain ⟨before, after, rfl⟩ := List.append_of_mem hreport
  rw [List.map_append, List.map_cons, List.nodup_append, List.nodup_cons] at hnodup
  obtain ⟨-, ⟨hafter, -⟩, hbefore⟩ := hnodup
  rw [List.flatMap_append, List.flatMap_cons, List.filter_append, List.filter_append, hothers before,
    hothers after, List.append_nil, List.nil_append]
  · intro other hmem heq
    exact hafter (heq ▸ List.mem_map_of_mem hmem)
  · intro other hmem heq
    exact hbefore _ (List.mem_map_of_mem hmem) _ List.mem_cons_self heq

theorem status_iteration (hdryrun : s.dryrunMode = false)
    (h : (iteration cfg s cluster).outcome = .ok out) {c : Channel} {served : List ResolvedPort}
    (hreport : (c, Outcome.accepted served) ∈ out.result.reports) :
    channelLoadBalancer (cluster.applyAll cfg (iteration cfg s cluster).emitted) c =
      statusAfter s.statusLb (channelLoadBalancer cluster c) := by
  obtain ⟨-, -, -, -, -, -, -, -, hturns, -⟩ := requestsTo_iteration h
  have hnodup : (out.result.reports.map fun report => report.1.key).Nodup := by
    obtain ⟨start, -, hrun, -⟩ := muxPass_eq_ok (pass_of_iteration h)
    have hkeys := (cluster.admittedPass s).nodup_sortChannels
    change ((sortChannels (cluster.passInput s).channels).map Channel.key).Nodup at hkeys
    rwa [← Loop.map_fst_run hrun, List.map_map] at hkeys
  have hpart : ∀ requests : List Request, (requestsTo .channelStatus requests).filter
      (Request.onStatusOf c.key) = requests.filter (Request.onStatusOf c.key) := by
    intro requests
    rw [requestsTo, List.filter_filter]
    refine List.filter_congr fun request _ => ?_
    cases request <;> simp [Request.onStatusOf, Request.part]
  have hfilter : (iteration cfg s cluster).emitted.filter (Request.onStatusOf c.key) =
      if some (channelLoadBalancer cluster c) ≠ s.statusLb then
        [.patchChannelStatus c.key s.statusLb] else [] := by
    rw [← hpart, hturns, hpart, filter_onStatusOf hnodup hreport]
    unfold turnRequests updateChannelServiceMetadata unlessDryrun
    simp only [hdryrun, Bool.false_eq_true, if_false, List.filter_append]
    split_ifs <;> simp [Request.onStatusOf]
  rw [channelLoadBalancer, get_channelStatus_applyAll, hfilter, statusAfter]
  split_ifs with hchanged
  · rw [channelLoadBalancer]
    cases hlive : cluster.channelStatus.get c.key with
    | none => cases s.statusLb <;> rfl
    | some live => cases s.statusLb <;> rfl
  · rfl

theorem status_unpatched_iff (hdryrun : s.dryrunMode = false)
    (h : (iteration cfg s cluster).outcome = .ok out) :
    requestsTo .channelStatus (iteration cfg s cluster).emitted = [] ↔
      ∀ c served, (c, Outcome.accepted served) ∈ out.result.reports →
        some (channelLoadBalancer cluster c) = s.statusLb := by
  obtain ⟨-, -, -, -, -, -, -, -, hturns, -⟩ := requestsTo_iteration h
  have hturn : ∀ report : Channel × Outcome,
      requestsTo .channelStatus (turnRequests cfg s cluster report) = [] ↔
        ∀ served, report.2 = .accepted served →
          some (channelLoadBalancer cluster report.1) = s.statusLb := by
    rintro ⟨c, outcome⟩
    cases outcome with
    | rejected rejection => exact iff_of_true rfl fun served h => nomatch h
    | accepted resolved =>
      unfold turnRequests updateChannelServiceMetadata unlessDryrun
      simp only [hdryrun, Bool.false_eq_true, if_false, requestsTo_append]
      split_ifs with hports hchanged hchanged
      all_goals simp_all [requestsTo, Request.part]
  rw [hturns, requestsTo, List.filter_flatMap, List.flatMap_eq_nil_iff]
  constructor
  · intro hnil c served hreport
    exact (hturn (c, .accepted served)).mp (hnil _ hreport) served rfl
  · rintro hall ⟨c, outcome⟩ hreport
    refine (hturn (c, outcome)).mpr ?_
    rintro served rfl
    exact hall c served hreport

end Status

/-! ## The main result -/

theorem writes_eq_nil_iff (requests : List Request) :
    requests.filter Request.writes = [] ↔
      ∀ part, part ≠ .event → requestsTo part requests = [] := by
  unfold requestsTo
  simp only [List.filter_eq_nil_iff, decide_eq_true_eq]
  constructor
  · rintro h part hpart request hrequest rfl
    have hwrites := h request hrequest
    cases request <;> simp [Request.writes, Request.part] at hwrites hpart
  · intro h request hrequest hwrites
    cases hevent : request.part with
    | event => cases request <;> simp [Request.writes, Request.part] at hwrites hevent
    | _ => exact h _ (by simp) request hrequest hevent

theorem applyAll_of_writes_nil {cluster : Cluster} {requests : List Request}
    (h : (requests.filter Request.writes).isEmpty) : cluster.applyAll cfg requests = cluster := by
  refine Cluster.applyAll_invariant cfg (fun current => current = cluster) rfl
    fun current request hmem hcurrent => ?_
  rw [List.isEmpty_iff, List.filter_eq_nil_iff] at h
  cases request with
  | event => exact hcurrent
  | _ => exact absurd rfl (h _ hmem)

/-- The Endpoints of the sample mux are cached as they are. -/
def cachedSurroundings (cluster : Cluster) : Surroundings :=
  sampleSurroundings (match cluster.endpoints with
    | none => Dict.empty
    | some live => Dict.ofList [(("default", "mux"), live)])

def sampleRun : ℕ → Cluster
  | 0 => sampleCluster
  | t + 1 => (sampleRun t).applyAll sampleConfig
      (iteration sampleConfig (cachedSurroundings (sampleRun t)) (sampleRun t)).emitted

theorem sampleRun_settled (t : ℕ) : sampleRun (t + 2) = sampleRun 2 := by
  induction t with
  | zero => rfl
  | succ t ih =>
    change (sampleRun (t + 2)).applyAll _ _ = _
    rw [ih]
    exact applyAll_of_writes_nil (by decide +kernel)

theorem sampleRun_cases {P : Cluster → Prop} (h0 : P (sampleRun 0)) (h1 : P (sampleRun 1))
    (h2 : P (sampleRun 2)) : ∀ t, P (sampleRun t)
  | 0 => h0
  | 1 => h1
  | t + 2 => sampleRun_settled t ▸ h2

end SvcLbMux
