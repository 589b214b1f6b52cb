import Mathlib.Data.Rat.Defs
import SvcLbMux.Annotations
import SvcLbMux.PortIdentity

namespace SvcLbMux

open Py

variable (cfg : Config)

/-! ## Port ranges -/

def parsePortRange (ranges : List (Int × Int)) (item : String) :
    Except ValueError (List (Int × Int)) :=
  let item := strip item
  if item = "" then .ok ranges
  else
    let (startText, endText) := (cut item "-").getD (item, item)
    match validatePortText (strip startText) cfg.annotationPortRange with
    | .error e => .error e
    | .ok first =>
      match validatePortText (strip endText) cfg.annotationPortRange with
      | .error e => .error e
      | .ok last =>
        if first > last then
          .error ⟨"Invalid " ++ cfg.annotationPortRange ++ " range " ++ reprText item ++
            "; start is greater than end"⟩
        else .ok (ranges ++ [(first, last)])

def parsePortRanges (value : String) : Except ValueError (List (Int × Int)) :=
  if value = "" then .ok [] else (split value ',').foldlM (parsePortRange cfg) []

def containsPort (ranges : List (Int × Int)) (port : Int) : Bool :=
  ranges.any fun r => r.1 ≤ port && port ≤ r.2

/-- `range(start, start + n)`. -/
def portsFrom (start : Int) : ℕ → List Int
  | 0 => []
  | n + 1 => start :: portsFrom (start + 1) n

/-- The ports of the ranges, in the order in which an allocator tries them. -/
def rangePorts (ranges : List (Int × Int)) : List Int :=
  ranges.flatMap fun r => portsFrom r.1 (r.2 + 1 - r.1).toNat

def formatRanges (ranges : List (Int × Int)) : String :=
  String.intercalate "," (ranges.map fun r =>
    if r.1 ≠ r.2 then str r.1 ++ "-" ++ str r.2 else str r.1)

/-! ## Claims -/

/-- A JSON value in a field of a claim. Python compares numbers of all kinds by value. -/
inductive FieldValue where
  | null
  | number (value : ℚ)
  | text (value : String)
  | other (json : String)
deriving DecidableEq

/-- `int(value)`; `none` for `None` and where `int` raises. -/
def FieldValue.toInt : FieldValue → Option Int
  | .null => none
  | .number x => some (x.num.tdiv x.den)
  | .text s => int s
  | .other _ => none

/-- An entry of `portClaims` or `allocations`; `none` is an absent field. -/
structure Claim where
  namespace_ : String
  service : String
  portName : String
  protocol : Option String
  channelPort : Option FieldValue
  muxPort : Option FieldValue
  port : Option FieldValue
  source : Option FieldValue
  extra : List (String × FieldValue)
deriving DecidableEq

namespace Claim

/-- `claim.get("protocol", "TCP")`. -/
def protocolOrTcp (claim : Claim) : String := claim.protocol.getD "TCP"

def ref (claim : Claim) : PortAllocationRef :=
  ⟨claim.namespace_, claim.service, claim.portName, claim.protocolOrTcp⟩

end Claim

/-- `_claim_mux_port`. -/
def claimMuxPort (claim : Claim) : Option Int :=
  ((claim.muxPort.or claim.port).getD .null).toInt

/-- The listener that a claim is on, if its port is readable. -/
def Claim.listener (claim : Claim) : Option PortKey :=
  (claimMuxPort claim).map fun port => (port, claim.protocolOrTcp)

def claimMuxName (claim : Claim) : String :=
  cfg.shortDigest (claim.namespace_ ++ "/" ++ claim.service ++ "/" ++ claim.portName)

def claimOwner (claim : Claim) : String :=
  ownerText claim.namespace_ claim.service (claimMuxName cfg claim)

/-- The claim that `_set_claim` stores. -/
def Claim.ofRef (ref : PortAllocationRef) (channelPort muxPort : Int) (mode : String) : Claim where
  namespace_ := ref.namespace_
  service := ref.service
  portName := ref.portName
  protocol := some ref.protocol
  channelPort := some (.number channelPort)
  muxPort := some (.number muxPort)
  port := some (.number muxPort)
  source := some (.text mode)
  extra := []

/-- The owner of the port that a reference names, hashed as `_ref_owner` does. -/
def refOwner (ref : PortAllocationRef) : String :=
  claimOwner cfg ⟨ref.namespace_, ref.service, ref.portName, none, none, none, none, none, []⟩

/-! ## The state ConfigMap -/

/-- The JSON document of the state ConfigMap; `portClaims` replaced the older `allocations`. -/
structure StateDoc where
  mux : Option (Option String × Option String)
  portClaims : Option (List Claim)
  allocations : Option (List Claim)
deriving DecidableEq

/-- What `allocations.json` holds. `document none` is the empty JSON object. -/
inductive StateText where
  | missing
  | notJson
  | document (state : Option StateDoc)
deriving DecidableEq

structure ConfigMap where
  /-- The annotation that names the owning mux. -/
  muxAnnotation : Option String
  data : StateText
deriving DecidableEq

structure ConfigMapAllocationStore where
  namespace_ : String
  name : String
  muxKey : String × String

namespace ConfigMapAllocationStore

variable (store : ConfigMapAllocationStore)

def muxRef : String := store.muxKey.1 ++ "/" ++ store.muxKey.2

def validateConfigmapOwner (configmap : ConfigMap) : Except ValueError Unit :=
  match configmap.muxAnnotation with
  | none => .ok ()
  | some owner =>
    if owner ≠ "" ∧ owner ≠ store.muxRef then
      .error ⟨"Mux state ConfigMap " ++ store.namespace_ ++ "/" ++ store.name ++
        " is owned by mux " ++ owner ++ "; expected " ++ store.muxRef ++
        ". Use one state ConfigMap per mux."⟩
    else .ok ()

def validateStateOwner (state : Option StateDoc) : Except ValueError Unit :=
  match state.bind StateDoc.mux with
  | none => .ok ()
  | some (namespace_, name) =>
    if (namespace_, name) ≠ (some store.muxKey.1, some store.muxKey.2) then
      .error ⟨"Mux state ConfigMap " ++ store.namespace_ ++ "/" ++ store.name ++
        " contains state for mux " ++ namespace_.getD "None" ++ "/" ++ name.getD "None" ++
        "; expected " ++ store.muxRef ++ ". Use one state ConfigMap per mux."⟩
    else .ok ()

def decodeState : StateText → Except ValueError (Option StateDoc)
  | .missing => .ok none
  | .notJson => .error ⟨"Invalid mux state ConfigMap JSON"⟩
  | .document state => .ok state

/-- `load()`; `none` is the empty state `{}`. -/
def load (configmap : Option ConfigMap) : Except ValueError (Option StateDoc) :=
  match configmap with
  | none => .ok none
  | some configmap =>
    match store.validateConfigmapOwner configmap with
    | .error e => .error e
    | .ok () =>
      match decodeState configmap.data with
      | .error e => .error e
      | .ok state =>
        match store.validateStateOwner state with
        | .error e => .error e
        | .ok () => .ok state

/-- `save(state)`: the ConfigMap after the patch, or as created. -/
def save (state : StateDoc) : ConfigMap where
  muxAnnotation := some store.muxRef
  data := .document (some { state with mux := some (some store.muxKey.1, some store.muxKey.2) })

theorem ownerAccepted_iff (configmap : ConfigMap) :
    store.validateConfigmapOwner configmap = .ok () ↔
      ∀ owner, configmap.muxAnnotation = some owner → owner ≠ "" → owner = store.muxRef := by
  unfold validateConfigmapOwner
  cases configmap.muxAnnotation with
  | none => simp
  | some owner =>
    dsimp only
    split_ifs with h
    · simpa using h
    · simpa [not_and_or, or_iff_not_imp_left] using h

theorem load_save (state : StateDoc) :
    store.load (some (store.save state)) =
      .ok (some { state with mux := some (some store.muxKey.1, some store.muxKey.2) }) := by
  simp [load, save, validateConfigmapOwner, decodeState, validateStateOwner]

end ConfigMapAllocationStore

/-! ## Lemmas -/

theorem mem_portsFrom (start : Int) (n : ℕ) (port : Int) :
    port ∈ portsFrom start n ↔ start ≤ port ∧ port < start + n := by
  induction n generalizing start with
  | zero =>
    simp only [portsFrom, List.not_mem_nil, false_iff]
    omega
  | succ n ih =>
    rw [portsFrom, List.mem_cons, ih]
    omega

theorem mem_rangePorts (ranges : List (Int × Int)) (port : Int) :
    port ∈ rangePorts ranges ↔ containsPort ranges port = true := by
  simp only [rangePorts, List.mem_flatMap, mem_portsFrom, containsPort, List.any_eq_true,
    Bool.and_eq_true, decide_eq_true_eq]
  refine exists_congr fun r => and_congr_right fun _ => ?_
  omega

theorem parsePortRanges_inRange {value : String} {ranges : List (Int × Int)}
    (h : parsePortRanges cfg value = .ok ranges) {port : Int}
    (hport : containsPort ranges port = true) : 1 ≤ port ∧ port ≤ 65535 := by
  have hall : ∀ r ∈ ranges, 1 ≤ r.1 ∧ r.2 ≤ 65535 := by
    unfold parsePortRanges at h
    split at h
    · obtain rfl := Except.ok.inj h
      simp
    · -- Every item of the list is checked before it is added.
      refine Loop.foldlM_invariant (fun rs : List (Int × Int) => ∀ r ∈ rs, 1 ≤ r.1 ∧ r.2 ≤ 65535)
        (by simp) ?_ h
      intro rs item rs' hrs hstep
      unfold parsePortRange at hstep
      dsimp only at hstep
      split at hstep
      · exact Except.ok.inj hstep ▸ hrs
      split at hstep
      · cases hstep
      · rename_i first hfirst
        split at hstep
        · cases hstep
        · rename_i last hlast
          split at hstep
          · cases hstep
          · obtain rfl := Except.ok.inj hstep
            intro r hr
            rcases List.mem_append.mp hr with hr | hr
            · exact hrs r hr
            · obtain rfl := List.mem_singleton.mp hr
              exact ⟨(validatePortText_eq_ok.mp hfirst).2.1, (validatePortText_eq_ok.mp hlast).2.2⟩
  simp only [containsPort, List.any_eq_true, Bool.and_eq_true, decide_eq_true_eq] at hport
  obtain ⟨r, hr, hlo, hhi⟩ := hport
  have := hall r hr
  omega

@[simp] theorem claimMuxPort_ofRef (ref : PortAllocationRef) (channelPort muxPort : Int)
    (mode : String) : claimMuxPort (Claim.ofRef ref channelPort muxPort mode) = some muxPort := by
  simp [claimMuxPort, Claim.ofRef, FieldValue.toInt]

@[simp] theorem ref_ofRef (ref : PortAllocationRef) (channelPort muxPort : Int) (mode : String) :
    (Claim.ofRef ref channelPort muxPort mode).ref = ref := rfl

@[simp] theorem listener_ofRef (ref : PortAllocationRef) (channelPort muxPort : Int)
    (mode : String) :
    (Claim.ofRef ref channelPort muxPort mode).listener = some (muxPort, ref.protocol) := by
  rw [Claim.listener, claimMuxPort_ofRef]
  rfl

/-- `mux_state` and `reconcile` hash a port to the same name. -/
theorem claimMuxName_eq_portHash (claim : Claim) :
    claimMuxName cfg claim = portHash cfg [claim.namespace_, claim.service, claim.portName] := by
  rw [claimMuxName, portHash]
  congr 1

theorem claimOwner_of_ref {claim : Claim} {c : Channel} {p : ServicePort}
    (h : claim.ref = .fromChannelPort c p) : claimOwner cfg claim = c.owner cfg p := by
  simp only [Claim.ref, PortAllocationRef.fromChannelPort, PortAllocationRef.mk.injEq] at h
  obtain ⟨h1, h2, h3, -⟩ := h
  rw [claimOwner, claimMuxName_eq_portHash, h1, h2, h3]
  rfl

theorem refOwner_fromChannelPort (c : Channel) (p : ServicePort) :
    refOwner cfg (.fromChannelPort c p) = c.owner cfg p := by
  rw [refOwner, claimOwner, claimMuxName_eq_portHash]
  rfl

end SvcLbMux
