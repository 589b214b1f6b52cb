import SvcLbMux.Endpoints
import SvcLbMux.Library.Json
import SvcLbMux.Library.MergePatch

namespace SvcLbMux

open Py

section Definitions

variable (cfg : Config)

def channelRefs (channels : List Channel) : List String :=
  (sortChannels channels).map fun channel => channel.namespace_ ++ "/" ++ channel.name

def generatedLabels : Dict String String :=
  Dict.ofList [("app.kubernetes.io/managed-by", "svc-lb-mux"),
    ("app.kubernetes.io/component", "mux-endpoints")]

def generatedAnnotations (muxKey : String × String) (channels : List Channel) :
    Dict String String :=
  Dict.ofList [(cfg.annotationManaged, "true"), (cfg.annotationMux, muxKey.1 ++ "/" ++ muxKey.2),
    (cfg.annotationChannels, dumps (channelRefs channels))]

def buildGeneratedEndpointsMetadata (muxLabels : Dict String String) (muxKey : String × String)
    (channels : List Channel) : Dict String String × Dict String String :=
  (muxLabels.update generatedLabels, generatedAnnotations cfg muxKey channels)

end Definitions

/-- What a pass wants the Endpoints of its mux to be. -/
structure DesiredEndpoints where
  labels : Dict String String
  annotations : Dict String String
  subsets : List EndpointSubset

namespace DesiredEndpoints

variable (desired : DesiredEndpoints)

/-- A pass with these channels, and with the subsets that it has collected from them. -/
def ofPass (cfg : Config) (muxLabels : Dict String String) (muxKey : String × String)
    (channels : List Channel) (subsets : List EndpointSubset) : DesiredEndpoints :=
  let metadata := buildGeneratedEndpointsMetadata cfg muxLabels muxKey channels
  ⟨metadata.1, metadata.2, subsets⟩

def patches (live : Endpoints) : Bool :=
  endpointsChanged live desired.labels desired.annotations desired.subsets

/-- The Endpoints after the patch: of the metadata it carries what is wanted, and nothing that is to
go. -/
def patched (live : Endpoints) : Endpoints where
  labels := live.labels.mergePatch (Dict.patchTo Dict.empty desired.labels)
  annotations := live.annotations.mergePatch (Dict.patchTo Dict.empty desired.annotations)
  subsets := some desired.subsets

def Covers (live : Endpoints) : Prop :=
  (∀ key ∈ live.labels.keys, key ∈ desired.labels.keys) ∧
    ∀ key ∈ live.annotations.keys, key ∈ volatileMetadataAnnotations ∨
      key ∈ desired.annotations.keys

def after (live : Endpoints) : Endpoints := if desired.patches live then desired.patched live else live

end DesiredEndpoints

/-- The patch reaches all that is wanted, unless there is a label or an annotation that is to go. -/
theorem patches_patched_eq_false_iff (desired : DesiredEndpoints) (live : Endpoints) :
    desired.patches (desired.patched live) = false ↔ desired.Covers live := by
  have hroutes : Route.endpoint '' routes ((desired.patched live).subsets.getD []) =
      Route.endpoint '' routes desired.subsets := rfl
  have hlabels : (desired.patched live).labels.Same desired.labels ↔
      ∀ key ∈ live.labels.keys, key ∈ desired.labels.keys :=
    forall_congr' fun key => Dict.get_mergePatch_eq_desired_iff live.labels desired.labels key
  have hannotations : (comparableAnnotations (desired.patched live).annotations).Same
      (comparableAnnotations desired.annotations) ↔
      ∀ key ∈ live.annotations.keys, key ∈ volatileMetadataAnnotations ∨
        key ∈ desired.annotations.keys := by
    refine forall_congr' fun key => ?_
    have hkey := Dict.get_mergePatch_eq_desired_iff live.annotations desired.annotations key
    rw [comparableAnnotations, comparableAnnotations, Dict.get_filterKeys, Dict.get_filterKeys]
    by_cases hvolatile : key ∈ volatileMetadataAnnotations
    · simp [hvolatile]
    · simpa [hvolatile, DesiredEndpoints.patched] using hkey
  rw [DesiredEndpoints.patches, endpointsChanged_eq_false_iff, hlabels, hannotations,
    and_iff_left hroutes, DesiredEndpoints.Covers]

/-- Endpoints that a pass does not patch carry nothing else. -/
theorem covered_of_not_patches {desired : DesiredEndpoints} {live : Endpoints}
    (h : desired.patches live = false) : desired.Covers live := by
  obtain ⟨hlabels, hannotations, -⟩ := (endpointsChanged_eq_false_iff _ _ _ _).mp h
  constructor
  · intro key hkey
    obtain ⟨v, hv⟩ := (Dict.mem_keys_iff _ _).mp hkey
    exact (Dict.mem_keys_iff _ _).mpr ⟨v, (hlabels key).symm.trans hv⟩
  · intro key hkey
    obtain ⟨v, hv⟩ := (Dict.mem_keys_iff _ _).mp hkey
    refine or_iff_not_imp_left.mpr fun hvolatile => (Dict.mem_keys_iff _ _).mpr ⟨v, ?_⟩
    have hsame := hannotations key
    rw [comparableAnnotations, comparableAnnotations, Dict.get_filterKeys, Dict.get_filterKeys] at hsame
    simp only [hvolatile, not_false_eq_true, decide_true, if_true] at hsame
    exact hsame.symm.trans hv

theorem settled_iff (desired : DesiredEndpoints) (live : Endpoints) :
    (∀ n, desired.patches (desired.after^[n + 1] live) = false) ↔ desired.Covers live := by
  have hfirst : desired.patches (desired.after live) = false ↔ desired.Covers live := by
    rw [← patches_patched_eq_false_iff desired live, DesiredEndpoints.after]
    split_ifs with hpatches
    · rfl
    · rw [Bool.not_eq_true] at hpatches
      exact iff_of_true hpatches
        ((patches_patched_eq_false_iff desired live).mpr (covered_of_not_patches hpatches))
  rw [← hfirst]
  constructor
  · exact fun h => h 0
  · intro h n
    -- What is not patched stays as it is.
    have hfixed : desired.after^[n + 1] live = desired.after live := by
      have hstays : desired.after (desired.after live) = desired.after live := by
        rw [DesiredEndpoints.after, h]
        rfl
      rw [Function.iterate_succ_apply]
      exact Function.iterate_fixed hstays n
    rw [hfixed]
    exact h

/-- The Endpoints carry no other label than the mux and the generated ones, and no other annotation
than the generated and the volatile ones. -/
def MetadataCovered (cfg : Config) (muxLabels : Dict String String) (live : Endpoints) : Prop :=
  (∀ key ∈ live.labels.keys, key ∈ muxLabels.keys ∨
    key ∈ ["app.kubernetes.io/managed-by", "app.kubernetes.io/component"]) ∧
  ∀ key ∈ live.annotations.keys, key ∈ volatileMetadataAnnotations ∨
    key ∈ [cfg.annotationManaged, cfg.annotationMux, cfg.annotationChannels]

/-- After a pass no later pass over the same mux, channels and channel Endpoints patches the Endpoints
again, if and only if they carried nothing else before. -/
theorem endpoints_patch_quiescent_iff (cfg : Config) (muxLabels : Dict String String)
    (muxKey : String × String) (channels : List Channel) (subsets : List EndpointSubset)
    (live : Endpoints) :
    (∀ n, (DesiredEndpoints.ofPass cfg muxLabels muxKey channels subsets).patches
      ((DesiredEndpoints.ofPass cfg muxLabels muxKey channels subsets).after^[n + 1] live) = false) ↔
      MetadataCovered cfg muxLabels live := by
  rw [settled_iff, DesiredEndpoints.Covers, MetadataCovered]
  refine and_congr (forall₂_congr fun key _ => ?_) (forall₂_congr fun key _ => or_congr_right ?_)
  · exact Dict.mem_keys_updateList _ _ _
  · exact (Dict.mem_keys_updateList _ _ _).trans (or_iff_right (List.not_mem_nil))

/-- The mux had a label `team` before. -/
def relabelledEndpoints : Endpoints where
  labels := Dict.ofList [("team", "edge")]
  annotations := Dict.empty
  subsets := none

/-- The label stays on its Endpoints, and every pass patches them. -/
theorem endpoints_patched_again_relabelled :
    ¬ ∀ n, (DesiredEndpoints.ofPass sampleConfig Dict.empty ("default", "mux") [] []).patches
      ((DesiredEndpoints.ofPass sampleConfig Dict.empty ("default", "mux") [] []).after^[n + 1]
        relabelledEndpoints) = false := by
  intro h
  exact absurd (h 0) (by decide +kernel)

end SvcLbMux
