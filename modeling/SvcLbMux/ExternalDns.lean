import SvcLbMux.Controller
import SvcLbMux.Library.Unique
import SvcLbMux.MuxAnnotations

namespace SvcLbMux

open Py

variable (cfg : Config)

/-! ## Whose a key is -/

/-- The mux has the key for itself: it is there and not tracked as the controller's. -/
def userOwned (annotations : Dict String String) (key : String) : Bool :=
  annotations.contains key &&
    key ∉ parseAggregatedExternalDnsKeys (annotations.get cfg.annotationExternalDnsAggregated)

/-- The keys that the controller has after it published `aggregated`. -/
def publishedKeys (annotations aggregated : Dict String String) : List String :=
  aggregatedExternalDnsAnnotations.filter fun key =>
    !userOwned cfg annotations key && aggregated.contains key

/-- The annotation that lists these items, if there are any. -/
def listText (items : List String) : Option String :=
  if items = [] then none else some (String.intercalate "," items)

variable {cfg}

theorem tracking_notMem (cfg : Config) :
    cfg.annotationExternalDnsAggregated ∉ aggregatedExternalDnsAnnotations := by
  intro h
  have hlast : ∀ key ∈ aggregatedExternalDnsAnnotations, key.toList.getLast? ≠ some 's' := by
    decide +kernel
  refine hlast _ h ?_
  rw [Config.annotationExternalDnsAggregated, Config.annotationKey, String.toList_append,
    List.getLast?_append_of_ne_nil _ (by decide)]
  decide +kernel

theorem parse_formatAggregatedExternalDnsKeys (keys : List String) :
    parseAggregatedExternalDnsKeys (some (formatAggregatedExternalDnsKeys keys)) =
      aggregatedExternalDnsAnnotations.filter (· ∈ keys) := by
  have hall : ∀ b b' : Bool, parseAggregatedExternalDnsKeys (some (String.intercalate ","
      (((aggregatedExternalDnsAnnotations.zip [b, b']).filter Prod.snd).map Prod.fst))) =
        ((aggregatedExternalDnsAnnotations.zip [b, b']).filter Prod.snd).map Prod.fst := by
    decide +kernel
  have hfilter : ((aggregatedExternalDnsAnnotations.zip
      [decide <| externalDnsHostnameAnnotation ∈ keys,
        decide <| externalDnsCloudflareProxiedAnnotation ∈ keys]).filter Prod.snd).map Prod.fst =
          aggregatedExternalDnsAnnotations.filter (· ∈ keys) := by
    by_cases hhost : externalDnsHostnameAnnotation ∈ keys <;>
      by_cases hproxied : externalDnsCloudflareProxiedAnnotation ∈ keys <;>
      simp [aggregatedExternalDnsAnnotations, hhost, hproxied]
  rw [formatAggregatedExternalDnsKeys, ← hfilter]
  exact hall _ _

/-! ## What publishing does -/

section Publish

variable {annotations aggregated : Dict String String}

theorem applyAggregatedKey_spec (managedKeys : List String) (aggregated : Dict String String)
    (acc : Dict String String × List String) (k : String) :
    (∀ key, (applyAggregatedKey managedKeys aggregated acc k).1.get key =
      if k = key ∧ ¬ (k ∈ acc.1.keys ∧ k ∉ managedKeys) then aggregated.get k
      else acc.1.get key) ∧
    ∀ key, key ∈ (applyAggregatedKey managedKeys aggregated acc k).2 ↔
      key ∈ acc.2 ∨ (k = key ∧ ¬ (k ∈ acc.1.keys ∧ k ∉ managedKeys) ∧ k ∈ aggregated.keys) := by
  have hskip : (acc.1.contains k && decide (k ∉ managedKeys)) = true ↔
      k ∈ acc.1.keys ∧ k ∉ managedKeys := by
    rw [Bool.and_eq_true, Dict.contains_eq_true, decide_eq_true_eq]
  unfold applyAggregatedKey
  by_cases howned : k ∈ acc.1.keys ∧ k ∉ managedKeys
  · rw [if_pos (hskip.mpr howned)]
    simp [howned]
  · rw [if_neg fun h => howned (hskip.mp h)]
    cases hget : aggregated.get k with
    | none =>
      have habsent := (Dict.get_eq_none_iff _ _).mp hget
      simp [howned, habsent]
    | some value =>
      have hpresent := (Dict.mem_keys_iff _ _).mpr ⟨value, hget⟩
      simp [howned, hpresent, List.mem_insert_iff, or_comm, eq_comm]

theorem foldl_applyAggregatedKey (managedKeys : List String) (aggregated : Dict String String)
    {ks : List String} (hnodup : ks.Nodup) (acc : Dict String String × List String) :
    (∀ key, (ks.foldl (applyAggregatedKey managedKeys aggregated) acc).1.get key =
      if key ∈ ks ∧ ¬ (key ∈ acc.1.keys ∧ key ∉ managedKeys) then aggregated.get key
      else acc.1.get key) ∧
    ∀ key, key ∈ (ks.foldl (applyAggregatedKey managedKeys aggregated) acc).2 ↔
      key ∈ acc.2 ∨
        (key ∈ ks ∧ ¬ (key ∈ acc.1.keys ∧ key ∉ managedKeys) ∧ key ∈ aggregated.keys) := by
  induction ks generalizing acc with
  | nil => simp
  | cons k ks ih =>
    obtain ⟨hk, hnodup⟩ := List.nodup_cons.mp hnodup
    obtain ⟨hget, hmem⟩ := applyAggregatedKey_spec managedKeys aggregated acc k
    obtain ⟨ihget, ihmem⟩ := ih hnodup (applyAggregatedKey managedKeys aggregated acc k)
    -- A later key is present now if and only if it was before this turn.
    have hkeys : ∀ key ∈ ks, (key ∈ (applyAggregatedKey managedKeys aggregated acc k).1.keys ↔
        key ∈ acc.1.keys) := by
      intro key hkey
      have hne : k ≠ key := fun h => hk (h ▸ hkey)
      rw [Dict.mem_keys_iff, Dict.mem_keys_iff, hget key, if_neg fun h => hne h.1]
    constructor
    · intro key
      rw [List.foldl_cons, ihget key, hget key]
      rcases eq_or_ne k key with rfl | hne
      · simp [hk]
      · by_cases hkey : key ∈ ks
        · simp [hkeys key hkey, hkey, hne]
        · simp [hkey, hne, Ne.symm hne]
    · intro key
      rw [List.foldl_cons, ihmem key, hmem key]
      rcases eq_or_ne k key with rfl | hne
      · simp [hk]
      · by_cases hkey : key ∈ ks
        · simp [hkeys key hkey, hkey, hne]
        · simp [hkey, hne, Ne.symm hne]

theorem userOwned_eq_true_iff {key : String} :
    userOwned cfg annotations key = true ↔ key ∈ annotations.keys ∧
      key ∉ parseAggregatedExternalDnsKeys
        (annotations.get cfg.annotationExternalDnsAggregated) := by
  rw [userOwned, Bool.and_eq_true, Dict.contains_eq_true, decide_eq_true_eq]

theorem mem_publishedKeys {key : String} :
    key ∈ publishedKeys cfg annotations aggregated ↔ key ∈ aggregatedExternalDnsAnnotations ∧
      userOwned cfg annotations key = false ∧ key ∈ aggregated.keys := by
  rw [publishedKeys, List.mem_filter, Bool.and_eq_true, Bool.not_eq_true', Dict.contains_eq_true]

theorem filter_eq_publishedKeys {items : List String}
    (h : ∀ k, k ∈ items ↔ k ∈ publishedKeys cfg annotations aggregated) :
    aggregatedExternalDnsAnnotations.filter (· ∈ items) =
      publishedKeys cfg annotations aggregated := by
  refine List.filter_congr fun k hk => ?_
  rw [decide_eq_decide.mpr (h k), Bool.eq_iff_iff, decide_eq_true_eq, mem_publishedKeys,
    Bool.and_eq_true, Bool.not_eq_true', Dict.contains_eq_true]
  exact and_iff_right hk

/-- What the mux is given: the controller sets and deletes the keys that the mux does not have for
itself, and tracks those that it has set. -/
theorem get_applyAggregated (cfg : Config) (annotations aggregated : Dict String String)
    (key : String) :
    (applyAggregatedExternalDnsAnnotations cfg annotations aggregated).get key =
      if key = cfg.annotationExternalDnsAggregated then
        listText (publishedKeys cfg annotations aggregated)
      else if key ∈ aggregatedExternalDnsAnnotations ∧ userOwned cfg annotations key = false then
        aggregated.get key
      else annotations.get key := by
  have hnodup : aggregatedExternalDnsAnnotations.Nodup := by decide
  obtain ⟨hget, hmem⟩ := foldl_applyAggregatedKey (parseAggregatedExternalDnsKeys
    (annotations.get cfg.annotationExternalDnsAggregated)) aggregated hnodup (annotations, [])
  unfold applyAggregatedExternalDnsAnnotations
  dsimp only
  set loop := aggregatedExternalDnsAnnotations.foldl (applyAggregatedKey
    (parseAggregatedExternalDnsKeys (annotations.get cfg.annotationExternalDnsAggregated))
      aggregated) (annotations, []) with hloop
  have hpublished : ∀ k, k ∈ loop.2 ↔ k ∈ publishedKeys cfg annotations aggregated := by
    intro k
    rw [hmem k, mem_publishedKeys, ← Bool.not_eq_true, userOwned_eq_true_iff]
    simp
  have hfilter := filter_eq_publishedKeys hpublished
  have hnil : loop.2 = [] ↔ publishedKeys cfg annotations aggregated = [] := by
    rw [List.eq_nil_iff_forall_not_mem, List.eq_nil_iff_forall_not_mem]
    exact forall_congr' fun k => not_congr (hpublished k)
  have hothers : loop.1.get key =
      if key ∈ aggregatedExternalDnsAnnotations ∧ userOwned cfg annotations key = false then
        aggregated.get key
      else annotations.get key := by
    rw [hget key]
    refine if_congr (and_congr_right fun _ => ?_) rfl rfl
    rw [← Bool.not_eq_true, userOwned_eq_true_iff]
  rw [formatAggregatedExternalDnsKeys, hfilter, listText]
  by_cases hempty : publishedKeys cfg annotations aggregated = []
  · rw [if_neg (not_not.mpr (hnil.mpr hempty)), if_pos hempty, Dict.get_erase, hothers]
    exact if_congr eq_comm rfl rfl
  · rw [if_pos fun h => hempty (hnil.mp h), if_neg hempty, Dict.get_set, hothers]
    exact if_congr eq_comm rfl rfl

theorem mem_parse_applyAggregated {key : String} :
    key ∈ parseAggregatedExternalDnsKeys
        ((applyAggregatedExternalDnsAnnotations cfg annotations aggregated).get
          cfg.annotationExternalDnsAggregated) ↔
      key ∈ publishedKeys cfg annotations aggregated := by
  rw [get_applyAggregated, if_pos rfl, listText]
  split_ifs with hempty
  · have hnone : parseAggregatedExternalDnsKeys none = [] := by decide +kernel
    rw [hempty, hnone]
  · have hformat : String.intercalate "," (publishedKeys cfg annotations aggregated) =
        formatAggregatedExternalDnsKeys (publishedKeys cfg annotations aggregated) := by
      rw [formatAggregatedExternalDnsKeys, filter_eq_publishedKeys fun k => Iff.rfl]
    rw [hformat, parse_formatAggregatedExternalDnsKeys, List.mem_filter, decide_eq_true_eq,
      and_iff_right_iff_imp]
    exact fun h => (mem_publishedKeys.mp h).1

theorem userOwned_applyAggregated (annotations aggregated : Dict String String) {key : String}
    (hkey : key ∈ aggregatedExternalDnsAnnotations) :
    userOwned cfg (applyAggregatedExternalDnsAnnotations cfg annotations aggregated) key =
      userOwned cfg annotations key := by
  have hne : key ≠ cfg.annotationExternalDnsAggregated := fun h => tracking_notMem cfg (h ▸ hkey)
  rw [Bool.eq_iff_iff, userOwned_eq_true_iff, mem_parse_applyAggregated, mem_publishedKeys,
    Dict.mem_keys_iff, get_applyAggregated, if_neg hne]
  by_cases howned : userOwned cfg annotations key = true
  · have hpresent := (Dict.mem_keys_iff _ _).mp (userOwned_eq_true_iff.mp howned).1
    simp [howned, hpresent]
  · rw [Bool.not_eq_true] at howned
    simp [howned, hkey, Dict.mem_keys_iff]

theorem applyAggregated_again (annotations aggregated aggregated' : Dict String String) :
    (applyAggregatedExternalDnsAnnotations cfg
      (applyAggregatedExternalDnsAnnotations cfg annotations aggregated) aggregated').Same
        (applyAggregatedExternalDnsAnnotations cfg annotations aggregated') := by
  intro key
  have hpublished : publishedKeys cfg
      (applyAggregatedExternalDnsAnnotations cfg annotations aggregated) aggregated' =
        publishedKeys cfg annotations aggregated' :=
    List.filter_congr fun k hk => by rw [userOwned_applyAggregated _ _ hk]
  rw [get_applyAggregated, get_applyAggregated cfg annotations aggregated', hpublished]
  by_cases htracking : key = cfg.annotationExternalDnsAggregated
  · rw [if_pos htracking, if_pos htracking]
  · rw [if_neg htracking, if_neg htracking]
    by_cases hkey : key ∈ aggregatedExternalDnsAnnotations
    · rw [userOwned_applyAggregated _ _ hkey]
      cases howned : userOwned cfg annotations key with
      | false => rw [if_pos ⟨hkey, rfl⟩, if_pos ⟨hkey, rfl⟩]
      | true =>
        rw [if_neg (by simp), if_neg (by simp), get_applyAggregated, if_neg htracking,
          if_neg (by simp [howned])]
    · rw [if_neg fun h => hkey h.1, if_neg fun h => hkey h.1, get_applyAggregated,
        if_neg htracking, if_neg fun h => hkey h.1]

/-- Without a tracking annotation nothing is taken back: a key is either the user's or absent. -/
theorem applyAggregated_empty (hnone : annotations.get cfg.annotationExternalDnsAggregated = none) :
    (applyAggregatedExternalDnsAnnotations cfg annotations Dict.empty).Same annotations := by
  intro key
  have hnothing : publishedKeys cfg annotations Dict.empty = [] := by
    rw [List.eq_nil_iff_forall_not_mem]
    intro k hk
    simpa [Dict.mem_keys_iff] using (mem_publishedKeys.mp hk).2.2
  rw [get_applyAggregated, hnothing]
  by_cases htracking : key = cfg.annotationExternalDnsAggregated
  · rw [if_pos htracking, htracking, hnone]
    rfl
  · rw [if_neg htracking]
    by_cases hfree : key ∈ aggregatedExternalDnsAnnotations ∧ userOwned cfg annotations key = false
    · have habsent : key ∉ annotations.keys := by
        intro hpresent
        have howned := userOwned_eq_true_iff.mpr ⟨hpresent, by
          rw [hnone]
          exact List.not_mem_nil⟩
        rw [hfree.2] at howned
        cases howned
      rw [if_pos hfree, Dict.get_empty, (Dict.get_eq_none_iff _ _).mpr habsent]
    · rw [if_neg hfree]

end Publish

/-- Publishing one map after another comes to publishing the second one; keys of the mux and foreign
annotations are left alone; and publishing nothing takes everything back. -/
theorem applyAggregated_path_independent (cfg : Config)
    (annotations aggregated aggregated' : Dict String String) :
    (applyAggregatedExternalDnsAnnotations cfg
        (applyAggregatedExternalDnsAnnotations cfg annotations aggregated) aggregated').Same
      (applyAggregatedExternalDnsAnnotations cfg annotations aggregated') ∧
    (∀ key ∈ aggregatedExternalDnsAnnotations, ∀ value, annotations.get key = some value →
      key ∉ parseAggregatedExternalDnsKeys (annotations.get cfg.annotationExternalDnsAggregated) →
        (applyAggregatedExternalDnsAnnotations cfg annotations aggregated).get key = some value) ∧
    (∀ key ∉ aggregatedExternalDnsAnnotations, key ≠ cfg.annotationExternalDnsAggregated →
      (applyAggregatedExternalDnsAnnotations cfg annotations aggregated).get key =
        annotations.get key) ∧
    (annotations.get cfg.annotationExternalDnsAggregated = none →
      (applyAggregatedExternalDnsAnnotations cfg
        (applyAggregatedExternalDnsAnnotations cfg annotations aggregated) Dict.empty).Same
          annotations) := by
  refine ⟨applyAggregated_again _ _ _, fun key hkey value hvalue hunmanaged => ?_,
    fun key hkey hne => ?_, fun hnone key => ?_⟩
  · have hne : key ≠ cfg.annotationExternalDnsAggregated := fun h => tracking_notMem cfg (h ▸ hkey)
    have howned : userOwned cfg annotations key = true :=
      userOwned_eq_true_iff.mpr ⟨(Dict.mem_keys_iff _ _).mpr ⟨value, hvalue⟩, hunmanaged⟩
    rw [get_applyAggregated, if_neg hne, if_neg (by simp [howned]), hvalue]
  · rw [get_applyAggregated, if_neg hne, if_neg fun h => hkey h.1]
  · exact (applyAggregated_again _ _ _ key).trans (applyAggregated_empty hnone key)

/-! ## Writes of others -/

section Others

variable {current aggregated : Dict String String} {texts : GeneratedTexts} {key : String}

theorem get_desired_of_notMem {key : String}
    (h : key ∉ [cfg.annotationChannels, cfg.annotationTopology, cfg.annotationSummary]) :
    (desiredMuxAnnotations cfg current aggregated texts).get key =
      (applyAggregatedExternalDnsAnnotations cfg current aggregated).get key := by
  simp only [List.mem_cons, List.not_mem_nil, or_false, not_or] at h
  rw [desiredMuxAnnotations, Dict.get_set_ne _ (Ne.symm h.2.2), Dict.get_set_ne _ (Ne.symm h.2.1),
    Dict.get_set_ne _ (Ne.symm h.1)]

/-- An annotation of a mux that is not the controller's: it is not generated, and if it is an
external-dns annotation, the user has set it. -/
def Foreign (cfg : Config) (annotations : Dict String String) (key : String) : Prop :=
  key ∉ [cfg.annotationChannels, cfg.annotationTopology, cfg.annotationSummary,
      cfg.annotationExternalDnsAggregated] ∧
    (key ∈ aggregatedExternalDnsAnnotations → userOwned cfg annotations key = true)

theorem get_desiredMuxAnnotations (texts : GeneratedTexts) (h : Foreign cfg current key) :
    (desiredMuxAnnotations cfg current aggregated texts).get key = current.get key := by
  obtain ⟨hgenerated, hdns⟩ := h
  simp only [List.mem_cons, List.not_mem_nil, or_false, not_or] at hgenerated
  obtain ⟨hchannels, htopology, hsummary, htracking⟩ := hgenerated
  rw [get_desired_of_notMem (by simp [hchannels, htopology, hsummary]), get_applyAggregated,
    if_neg htracking, if_neg]
  rintro ⟨hkey, hfree⟩
  rw [hdns hkey] at hfree
  cases hfree

variable (cfg) in
/-- The keys of the controller when it has read the annotations: those that it generates, and the
external-dns keys that the tracking annotation lists. -/
def OwnedByController (current : Dict String String) (key : String) : Prop :=
  key ∈ [cfg.annotationChannels, cfg.annotationTopology, cfg.annotationSummary,
      cfg.annotationExternalDnsAggregated] ∨
    (key ∈ aggregatedExternalDnsAnnotations ∧
      key ∈ parseAggregatedExternalDnsKeys (current.get cfg.annotationExternalDnsAggregated))

/-- What the pass publishes under a key that the mux does not have. -/
def publishedValue (aggregated : Dict String String) (key : String) : Option String :=
  if key ∈ aggregatedExternalDnsAnnotations then aggregated.get key else none

theorem get_desired_of_not_owned (texts : GeneratedTexts) (h : ¬ OwnedByController cfg current key) :
    (desiredMuxAnnotations cfg current aggregated texts).get key =
      (current.get key).or (publishedValue aggregated key) := by
  obtain ⟨hgenerated, hdns⟩ := not_or.mp h
  simp only [List.mem_cons, List.not_mem_nil, or_false, not_or] at hgenerated
  obtain ⟨hchannels, htopology, hsummary, htracking⟩ := hgenerated
  rw [get_desired_of_notMem (by simp [hchannels, htopology, hsummary]), get_applyAggregated,
    if_neg htracking, publishedValue]
  by_cases hkey : key ∈ aggregatedExternalDnsAnnotations
  · -- An untracked key is the user's if it is there.
    have hunmanaged := fun hmanaged => hdns ⟨hkey, hmanaged⟩
    cases hget : current.get key with
    | none =>
      have habsent := (Dict.get_eq_none_iff _ _).mp hget
      have howned : userOwned cfg current key = false :=
        Bool.eq_false_iff.mpr fun h => habsent (userOwned_eq_true_iff.mp h).1
      rw [if_pos ⟨hkey, howned⟩, if_pos hkey, Option.none_or]
    | some value =>
      have howned : userOwned cfg current key = true :=
        userOwned_eq_true_iff.mpr ⟨(Dict.mem_keys_iff _ _).mpr ⟨value, hget⟩, hunmanaged⟩
      rw [if_neg (by simp [howned]), Option.some_or]
  · rw [if_neg fun h => hkey h.1, if_neg hkey, Option.or_none]

end Others

/-- Whatever others write between the reading and the patch of a pass, to keys that are not the
controller's: it is all in effect after the patch if and only if no patch is sent, or for each of
these keys the patch has nothing, since the mux did not have it and the pass does not publish it, or
the writes end with the value that was read, or with the published one where nothing was read. -/
theorem concurrent_writes_survive_iff (cfg : Config) (current aggregated : Dict String String)
    (texts : GeneratedTexts) (writes : List (String × Option String)) :
    (∀ key ∈ writes.map Prod.fst, ¬ OwnedByController cfg current key →
      (annotationsAfter (current.writes writes)
        (muxPatch current (desiredMuxAnnotations cfg current aggregated texts))).get key =
          (current.writes writes).get key) ↔
    current.Same (desiredMuxAnnotations cfg current aggregated texts) ∨
      ∀ key ∈ writes.map Prod.fst, ¬ OwnedByController cfg current key →
        (key ∉ current.keys ∧ publishedValue aggregated key = none) ∨
          (current.writes writes).get key =
            (current.get key).or (publishedValue aggregated key) := by
  by_cases hsame : current.Same (desiredMuxAnnotations cfg current aggregated texts)
  · simp [muxPatch, (Dict.same_iff _ _).mpr hsame, hsame, annotationsAfter]
  · have hpatch : muxPatch current (desiredMuxAnnotations cfg current aggregated texts) =
        some (current.patchTo (desiredMuxAnnotations cfg current aggregated texts)) := by
      unfold muxPatch
      rw [if_neg (fun h => hsame ((Dict.same_iff _ _).mp h))]
    rw [hpatch, or_iff_right hsame]
    refine forall_congr' fun key => forall_congr' fun _ => forall_congr' fun howned => ?_
    have hdesired := @get_desired_of_not_owned cfg current aggregated key texts howned
    have hkeys : key ∉ (desiredMuxAnnotations cfg current aggregated texts).keys ↔
        key ∉ current.keys ∧ publishedValue aggregated key = none := by
      rw [← Dict.get_eq_none_iff, ← Dict.get_eq_none_iff, hdesired, Option.or_eq_none_iff]
    rw [annotationsAfter, Dict.get_mergePatch_patchTo_eq_iff, hkeys, hdesired, ← and_assoc, and_self]
    exact or_congr_right eq_comm

/-- While a pass is under way, the port range of the mux is edited; the pass writes it back. A DNS
name that a user gives the mux meanwhile is overwritten by that of a channel. -/
theorem concurrent_write_lost :
    let cfg : Config := ⟨"svc-mux.nowake.ai", "default", fun _ => 0⟩
    let current := Dict.ofList [("svc-mux.nowake.ai/port-range", "9000-9001")]
    let aggregated := Dict.ofList [("external-dns.alpha.kubernetes.io/hostname", "web.example.com")]
    let writes := [("svc-mux.nowake.ai/port-range", some "9000-9100"),
      ("external-dns.alpha.kubernetes.io/hostname", some "mux.example.com")]
    let texts : GeneratedTexts := ⟨"[]", "Channels:", "0 channels"⟩
    let after := annotationsAfter (current.writes writes)
      (muxPatch current (desiredMuxAnnotations cfg current aggregated texts))
    (¬ OwnedByController cfg current "svc-mux.nowake.ai/port-range" ∧
      (current.writes writes).get "svc-mux.nowake.ai/port-range" = some "9000-9100" ∧
      after.get "svc-mux.nowake.ai/port-range" = some "9000-9001") ∧
    ¬ OwnedByController cfg current "external-dns.alpha.kubernetes.io/hostname" ∧
      (current.writes writes).get "external-dns.alpha.kubernetes.io/hostname" =
        some "mux.example.com" ∧
      after.get "external-dns.alpha.kubernetes.io/hostname" = some "web.example.com" := by
  unfold OwnedByController
  decide +kernel

/-! ## The requests of the channels -/

/-- `utils.parse_external_dns`. -/
def parseExternalDns (dnsText : Option String) : List String :=
  commaItems (dnsText.getD "")

section Requests

variable (cfg : Config)

def channelExternalDnsHostname (channel : Channel) : Option String :=
  channel.annotations.get cfg.annotationExternalDnsHostname

/-- `str(value).strip().lower()` of the `cloudflare-proxied` annotation, where there is one. -/
def channelProxiedValue (channel : Channel) : Option String :=
  (channel.annotations.get externalDnsCloudflareProxiedAnnotation).map fun value =>
    lower (strip value)

/-- What the loop over the channels has gathered; `seen_hostnames` holds the items of the list. -/
structure DnsRequests where
  hostnames : List String
  sawCloudflareProxied : Bool
  cloudflareProxied : Bool

def addDnsRequests (requests : DnsRequests) (channel : Channel) : DnsRequests :=
  let hostnames :=
    (parseExternalDns (channelExternalDnsHostname cfg channel)).foldl addNew requests.hostnames
  match channelProxiedValue channel with
  | none => { requests with hostnames := hostnames }
  | some proxiedValue =>
    if proxiedValue ∉ ["true", "false"] then { requests with hostnames := hostnames }
    else
      { hostnames := hostnames
        sawCloudflareProxied := true
        cloudflareProxied := requests.cloudflareProxied && proxiedValue = "true" }

def dnsRequests (channels : List Channel) : DnsRequests :=
  (sortChannels channels).foldl (addDnsRequests cfg) ⟨[], false, true⟩

def aggregateExternalDnsAnnotations (channels : List Channel) : Dict String String :=
  let requests := dnsRequests cfg channels
  let aggregated :=
    if requests.hostnames ≠ [] then
      Dict.empty.set externalDnsHostnameAnnotation (String.intercalate "," requests.hostnames)
    else Dict.empty
  if requests.sawCloudflareProxied then
    aggregated.set externalDnsCloudflareProxiedAnnotation
      (if requests.cloudflareProxied then "true" else "false")
  else aggregated

/-- The channels whose annotation stays unpublished, with it and with the key of the mux. -/
def externalDnsAggregationConflicts (muxAnnotations : Dict String String)
    (channels : List Channel) : List (Channel × String × String) :=
  let hostnameUserOwned := userOwned cfg muxAnnotations externalDnsHostnameAnnotation
  let cloudflareUserOwned := userOwned cfg muxAnnotations externalDnsCloudflareProxiedAnnotation
  (sortChannels channels).flatMap fun channel =>
    (if hostnameUserOwned && (channelExternalDnsHostname cfg channel).getD "" ≠ "" then
      [(channel, cfg.annotationExternalDnsHostname, externalDnsHostnameAnnotation)] else []) ++
    if cloudflareUserOwned &&
        channel.annotations.contains externalDnsCloudflareProxiedAnnotation then
      [(channel, externalDnsCloudflareProxiedAnnotation, externalDnsCloudflareProxiedAnnotation)]
    else []

/-- The hostnames that channels ask for, by namespace and name and then from left to right. -/
def requestedHostnames (channels : List Channel) : List String :=
  (sortChannels channels).flatMap fun channel =>
    parseExternalDns (channelExternalDnsHostname cfg channel)

/-- A channel has something valid to say for a key of the mux. -/
def Contributes (channel : Channel) (key : String) : Prop :=
  (key = externalDnsHostnameAnnotation ∧
    parseExternalDns (channelExternalDnsHostname cfg channel) ≠ []) ∨
  (key = externalDnsCloudflareProxiedAnnotation ∧
    (channelProxiedValue channel = some "true" ∨ channelProxiedValue channel = some "false"))

/-- The annotation in which a channel speaks about a key of the mux. -/
def channelDnsAnnotation (key : String) : String :=
  if key = externalDnsHostnameAnnotation then cfg.annotationExternalDnsHostname else key

/-- The mux carries the aggregated value of a key, and the key is tracked as the controller's. -/
def PublishedByController (muxAnnotations aggregated : Dict String String) (key : String) : Prop :=
  let desired := applyAggregatedExternalDnsAnnotations cfg muxAnnotations aggregated
  key ∈ aggregated.keys ∧ desired.get key = aggregated.get key ∧
    key ∈ parseAggregatedExternalDnsKeys (desired.get cfg.annotationExternalDnsAggregated)

end Requests

section Aggregated

variable {channels : List Channel}

theorem hostnames_addDnsRequests (requests : DnsRequests) (channel : Channel) :
    (addDnsRequests cfg requests channel).hostnames =
      (parseExternalDns (channelExternalDnsHostname cfg channel)).foldl addNew
        requests.hostnames := by
  unfold addDnsRequests
  dsimp only
  split
  · rfl
  · split_ifs <;> rfl

theorem hostnames_dnsRequests (cfg : Config) (channels : List Channel) :
    (dnsRequests cfg channels).hostnames = unique (requestedHostnames cfg channels) := by
  have hfold : ∀ (cs : List Channel) (requests : DnsRequests),
      (cs.foldl (addDnsRequests cfg) requests).hostnames =
        (cs.flatMap fun c => parseExternalDns (channelExternalDnsHostname cfg c)).foldl addNew
          requests.hostnames := by
    intro cs
    induction cs with
    | nil => exact fun _ => rfl
    | cons c cs ih =>
      intro requests
      rw [List.foldl_cons, ih, hostnames_addDnsRequests, List.flatMap_cons, List.foldl_append]
  exact hfold _ _

theorem proxied_addDnsRequests (requests : DnsRequests) (channel : Channel) :
    ((addDnsRequests cfg requests channel).sawCloudflareProxied = true ↔
      requests.sawCloudflareProxied = true ∨ channelProxiedValue channel = some "true" ∨
        channelProxiedValue channel = some "false") ∧
    ((addDnsRequests cfg requests channel).cloudflareProxied = false ↔
      requests.cloudflareProxied = false ∨ channelProxiedValue channel = some "false") := by
  unfold addDnsRequests
  cases channelProxiedValue channel with
  | none => simp
  | some value =>
    dsimp only
    by_cases hvalid : value ∈ ["true", "false"]
    · rw [if_neg (not_not.mpr hvalid)]
      rcases (by simpa using hvalid : value = "true" ∨ value = "false") with rfl | rfl <;> simp
    · rw [if_pos hvalid]
      simp only [List.mem_cons, List.not_mem_nil, or_false, not_or] at hvalid
      simp [hvalid.1, hvalid.2]

theorem sawCloudflareProxied_iff (cfg : Config) (channels : List Channel) :
    (dnsRequests cfg channels).sawCloudflareProxied = true ↔
      ∃ c ∈ channels, channelProxiedValue c = some "true" ∨
        channelProxiedValue c = some "false" := by
  refine (Loop.foldl_adds (fun requests (_ : Unit) => requests.sawCloudflareProxied = true)
    (fun c _ => channelProxiedValue c = some "true" ∨ channelProxiedValue c = some "false")
    (sortChannels channels) (fun requests c _ _ => (proxied_addDnsRequests requests c).1) _
      ()).trans ?_
  simp [sortChannels]

theorem cloudflareProxied_eq_false_iff (cfg : Config) (channels : List Channel) :
    (dnsRequests cfg channels).cloudflareProxied = false ↔
      ∃ c ∈ channels, channelProxiedValue c = some "false" := by
  refine (Loop.foldl_adds (fun requests (_ : Unit) => requests.cloudflareProxied = false)
    (fun c _ => channelProxiedValue c = some "false")
    (sortChannels channels) (fun requests c _ _ => (proxied_addDnsRequests requests c).2) _
      ()).trans ?_
  simp [sortChannels]

theorem get_aggregated_hostname (cfg : Config) (channels : List Channel) :
    (aggregateExternalDnsAnnotations cfg channels).get externalDnsHostnameAnnotation =
      listText (unique (requestedHostnames cfg channels)) := by
  have hne : externalDnsCloudflareProxiedAnnotation ≠ externalDnsHostnameAnnotation := by decide
  unfold aggregateExternalDnsAnnotations
  dsimp only
  rw [hostnames_dnsRequests, listText]
  split_ifs <;> simp_all

theorem get_aggregated_proxied (cfg : Config) (channels : List Channel) :
    (aggregateExternalDnsAnnotations cfg channels).get externalDnsCloudflareProxiedAnnotation =
      if (dnsRequests cfg channels).sawCloudflareProxied then
        some (if (dnsRequests cfg channels).cloudflareProxied then "true" else "false")
      else none := by
  have hne : externalDnsHostnameAnnotation ≠ externalDnsCloudflareProxiedAnnotation := by decide
  unfold aggregateExternalDnsAnnotations
  dsimp only
  split_ifs <;> simp_all

theorem mem_keys_of_contributes {c : Channel} (hc : c ∈ channels) {key : String}
    (h : Contributes cfg c key) : key ∈ (aggregateExternalDnsAnnotations cfg channels).keys := by
  rw [Dict.mem_keys_iff]
  obtain ⟨rfl, hhostnames⟩ | ⟨rfl, hvalue⟩ := h
  · obtain ⟨hostname, hmem⟩ := List.exists_mem_of_ne_nil _ hhostnames
    have hlisted : hostname ∈ unique (requestedHostnames cfg channels) := by
      rw [mem_unique]
      exact List.mem_flatMap.mpr ⟨c, (mem_sortBy _ _ _).mpr hc, hmem⟩
    rw [get_aggregated_hostname, listText, if_neg (List.ne_nil_of_mem hlisted)]
    exact ⟨_, rfl⟩
  · rw [get_aggregated_proxied, if_pos ((sawCloudflareProxied_iff cfg channels).mpr ⟨c, hc, hvalue⟩)]
    exact ⟨_, rfl⟩

theorem mem_aggregated_of_contributes {c : Channel} {key : String} (h : Contributes cfg c key) :
    key ∈ aggregatedExternalDnsAnnotations := by
  obtain ⟨rfl, -⟩ | ⟨rfl, -⟩ := h <;> decide

/-- The controller publishes what is asked for, unless the mux has the key for itself. -/
theorem publishedByController_iff {annotations : Dict String String} {c : Channel}
    (hc : c ∈ channels) {key : String} (h : Contributes cfg c key) :
    PublishedByController cfg annotations (aggregateExternalDnsAnnotations cfg channels) key ↔
      userOwned cfg annotations key = false := by
  have hkey := mem_aggregated_of_contributes h
  have hpresent := mem_keys_of_contributes hc h
  have hne : key ≠ cfg.annotationExternalDnsAggregated := fun he => tracking_notMem cfg (he ▸ hkey)
  unfold PublishedByController
  dsimp only
  rw [mem_parse_applyAggregated, mem_publishedKeys, get_applyAggregated, if_neg hne]
  constructor
  · rintro ⟨-, -, -, hfree, -⟩
    exact hfree
  · intro hfree
    rw [if_pos ⟨hkey, hfree⟩]
    exact ⟨hpresent, rfl, hkey, hfree, hpresent⟩

theorem mem_conflicts_iff {annotations : Dict String String} {c : Channel} (hc : c ∈ channels)
    {key : String} (h : Contributes cfg c key) :
    (c, channelDnsAnnotation cfg key, key) ∈
        externalDnsAggregationConflicts cfg annotations channels ↔
      userOwned cfg annotations key = true := by
  have hne : externalDnsCloudflareProxiedAnnotation ≠ externalDnsHostnameAnnotation := by decide
  have hsorted : c ∈ sortChannels channels := (mem_sortBy _ _ _).mpr hc
  unfold externalDnsAggregationConflicts
  dsimp only
  rw [List.mem_flatMap]
  obtain ⟨rfl, hhostnames⟩ | ⟨rfl, hvalue⟩ := h
  · have hasked : (channelExternalDnsHostname cfg c).getD "" ≠ "" := by
      intro hempty
      rw [parseExternalDns, hempty] at hhostnames
      exact hhostnames (by decide +kernel)
    constructor
    · rintro ⟨d, -, hmem⟩
      by_contra hfree
      simp [hfree, hne.symm] at hmem
    · intro howned
      exact ⟨c, hsorted, by simp [howned, hasked, channelDnsAnnotation]⟩
  · have hasked : c.annotations.contains externalDnsCloudflareProxiedAnnotation = true := by
      rw [Dict.contains, ← Option.isSome_map (f := fun value => lower (strip value))]
      rcases hvalue with hvalue | hvalue <;> exact Option.isSome_of_eq_some hvalue
    constructor
    · rintro ⟨d, -, hmem⟩
      by_contra hfree
      simp [hfree, hne] at hmem
    · intro howned
      exact ⟨c, hsorted, by simp [howned, hasked, channelDnsAnnotation, hne]⟩

end Aggregated

/-- Every hostname that is asked for is listed once, in order; `cloudflare-proxied` is the
conjunction of what is said; and what a channel asks for is either published by the controller or
reported as a conflict. -/
theorem dns_requests_published_or_reported (cfg : Config) (annotations : Dict String String)
    (channels : List Channel) :
    let aggregated := aggregateExternalDnsAnnotations cfg channels
    let listed := parseExternalDns (aggregated.get externalDnsHostnameAnnotation)
    aggregated.get externalDnsHostnameAnnotation = listText listed ∧
    listed.Nodup ∧ (∀ hostname, hostname ∈ listed ↔ ∃ c ∈ channels,
      hostname ∈ parseExternalDns (channelExternalDnsHostname cfg c)) ∧
    listed.Pairwise (fun hostname hostname' => (requestedHostnames cfg channels).idxOf hostname <
      (requestedHostnames cfg channels).idxOf hostname') ∧
    ((∃ c ∈ channels,
      channelProxiedValue c = some "true" ∨ channelProxiedValue c = some "false") ↔
        externalDnsCloudflareProxiedAnnotation ∈ aggregated.keys) ∧
    (aggregated.get externalDnsCloudflareProxiedAnnotation = some "false" ↔ ∃ c ∈ channels,
      channelProxiedValue c = some "false") ∧
    ∀ c ∈ channels, ∀ key, Contributes cfg c key →
      (PublishedByController cfg annotations aggregated key ↔
        ¬ (c, channelDnsAnnotation cfg key, key) ∈
          externalDnsAggregationConflicts cfg annotations channels) := by
  have hitems : ∀ hostname ∈ unique (requestedHostnames cfg channels), CommaItem hostname := by
    intro hostname hmem
    obtain ⟨c, -, hhostname⟩ := List.mem_flatMap.mp ((mem_unique _ _).mp hmem)
    exact commaItem_of_mem hhostname
  have hlisted : parseExternalDns ((aggregateExternalDnsAnnotations cfg channels).get
      externalDnsHostnameAnnotation) = unique (requestedHostnames cfg channels) := by
    rw [get_aggregated_hostname, listText, parseExternalDns]
    split_ifs with hempty
    · rw [hempty]
      decide +kernel
    · exact commaItems_intercalate hitems
  dsimp only
  rw [hlisted]
  refine ⟨get_aggregated_hostname cfg channels, nodup_unique _, fun hostname => ?_,
    pairwise_unique _, ?_, ?_, fun c hc key h => ?_⟩
  · rw [mem_unique]
    simp [requestedHostnames, sortChannels]
  · rw [Dict.mem_keys_iff, get_aggregated_proxied, ← sawCloudflareProxied_iff cfg]
    cases (dnsRequests cfg channels).sawCloudflareProxied <;> simp
  · rw [get_aggregated_proxied, ← cloudflareProxied_eq_false_iff cfg]
    cases hsaw : (dnsRequests cfg channels).sawCloudflareProxied with
    | true => cases (dnsRequests cfg channels).cloudflareProxied <;> simp
    | false =>
      -- Whoever says `false` has a valid value.
      refine iff_of_false (by simp) fun hfalse => ?_
      obtain ⟨c, hc, hvalue⟩ := (cloudflareProxied_eq_false_iff cfg channels).mp hfalse
      have hsaw' := (sawCloudflareProxied_iff cfg channels).mpr ⟨c, hc, Or.inr hvalue⟩
      rw [hsaw] at hsaw'
      cases hsaw'
  · rw [publishedByController_iff hc h, mem_conflicts_iff hc h, Bool.not_eq_true]

end SvcLbMux
