import SvcLbMux.Config
import SvcLbMux.Library.Loop
import SvcLbMux.Library.MergePatch

namespace SvcLbMux

open Py

variable (cfg : Config)

/-! ## Aggregated external-dns annotations -/

def parseAggregatedExternalDnsKeys (value : Option String) : List String :=
  ((split (value.getD "") ',').map strip).filter (· ≠ "")

def formatAggregatedExternalDnsKeys (keys : List String) : String :=
  String.intercalate "," (aggregatedExternalDnsAnnotations.filter (· ∈ keys))

/-- One key of the loop: the annotations so far and the keys that are managed from now on. -/
def applyAggregatedKey (managedKeys : List String) (aggregated : Dict String String)
    (acc : Dict String String × List String) (key : String) : Dict String String × List String :=
  if acc.1.contains key && key ∉ managedKeys then acc
  else match aggregated.get key with
    | some value => (acc.1.set key value, acc.2.insert key)
    | none => (acc.1.erase key, acc.2)

def applyAggregatedExternalDnsAnnotations (annotations aggregated : Dict String String) :
    Dict String String :=
  let managedKeys :=
    parseAggregatedExternalDnsKeys (annotations.get cfg.annotationExternalDnsAggregated)
  let (desired, nextManagedKeys) :=
    aggregatedExternalDnsAnnotations.foldl (applyAggregatedKey managedKeys aggregated)
      (annotations, [])
  if nextManagedKeys ≠ [] then
    desired.set cfg.annotationExternalDnsAggregated (formatAggregatedExternalDnsKeys nextManagedKeys)
  else desired.erase cfg.annotationExternalDnsAggregated

/-! ## The patch -/

structure GeneratedTexts where
  channels : String
  topology : String
  summary : String

def desiredMuxAnnotations (current aggregated : Dict String String) (texts : GeneratedTexts) :
    Dict String String :=
  (((applyAggregatedExternalDnsAnnotations cfg current aggregated).set
    cfg.annotationChannels texts.channels).set
    cfg.annotationTopology texts.topology).set
    cfg.annotationSummary texts.summary

/-- The patch of a pass that has read `current`; `none` when it sends none. -/
def muxPatch (current desired : Dict String String) : Option (Dict String (Option String)) :=
  if current.same desired then none else some (current.patchTo desired)

/-- The annotations of the mux after the pass, which finds them as others have left them. -/
def annotationsAfter (live : Dict String String) (patch : Option (Dict String (Option String))) :
    Dict String String :=
  match patch with
  | none => live
  | some patch => live.mergePatch patch

end SvcLbMux
