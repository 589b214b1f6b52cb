import Mathlib.Data.Set.Basic
import SvcLbMux.Controller

namespace SvcLbMux

open Py

structure EndpointPort where
  name : Option String
  port : Int
  protocol : String
deriving DecidableEq

/-- A subset of an Endpoints object. Of an address only the IP is read. -/
structure EndpointSubset where
  addresses : List String
  notReadyAddresses : List String
  ports : List EndpointPort
deriving DecidableEq

structure Endpoints where
  labels : Dict String String
  annotations : Dict String String
  subsets : Option (List EndpointSubset)
deriving DecidableEq

/-! ## Aggregation -/

/-- The port of a mux subset, named as the mux Service names the port of the channel. -/
def muxEndpointPort (cfg : Config) (channel : Channel) (port : EndpointPort) :
    Except PyError EndpointPort :=
  match port.name with
  | none => .error (.keyError "name")
  | some name =>
    .ok ⟨some (portHash cfg [channel.namespace_, channel.name, name]), port.port, port.protocol⟩

def muxSubset (cfg : Config) (channel : Channel) (subset : EndpointSubset) :
    Except PyError EndpointSubset :=
  (subset.ports.mapM (muxEndpointPort cfg channel)).map fun ports =>
    ⟨subset.addresses, subset.notReadyAddresses, ports⟩

def collectChannelEndpoints (cfg : Config) (channel : Channel)
    (memoEndpoints : Dict (String × String) Endpoints) : Except PyError (List EndpointSubset) :=
  match (memoEndpoints.get channel.key).bind Endpoints.subsets with
  | none => .ok []
  | some subsets =>
    (subsets.filter fun subset =>
      subset.addresses ≠ [] || subset.notReadyAddresses ≠ []).mapM (muxSubset cfg channel)

/-! ## Change detection -/

/-- Ready and not-ready endpoints. -/
abbrev EndpointSets := Finset MuxEp × Finset MuxEp

def addEndpoints (endpoints : Finset MuxEp) (port : EndpointPort) (ips : List String) :
    Finset MuxEp :=
  ips.foldl (fun endpoints ip => insert ⟨ip, port.port, port.protocol⟩ endpoints) endpoints

def getOldEndpointsSet (endpoints : Endpoints) : EndpointSets :=
  match endpoints.subsets with
  | none => (∅, ∅)
  | some subsets =>
    subsets.foldl (fun sets subset =>
      subset.ports.foldl (fun sets port =>
        (addEndpoints sets.1 port subset.addresses,
          addEndpoints sets.2 port subset.notReadyAddresses)) sets) (∅, ∅)

def getCurrentEndpointsSet (subsets : List EndpointSubset) : EndpointSets :=
  ((subsets.flatMap fun subset => subset.addresses.flatMap fun ip =>
      subset.ports.map fun port => (⟨ip, port.port, port.protocol⟩ : MuxEp)).toFinset,
    (subsets.flatMap fun subset => subset.notReadyAddresses.flatMap fun ip =>
      subset.ports.map fun port => (⟨ip, port.port, port.protocol⟩ : MuxEp)).toFinset)

def volatileMetadataAnnotations : List String :=
  ["kopf.zalando.org/last-handled-configuration",
    "kubectl.kubernetes.io/last-applied-configuration"]

def comparableAnnotations (annotations : Dict String String) : Dict String String :=
  annotations.filterKeys fun key => key ∉ volatileMetadataAnnotations

/-- Whether a pass patches the Endpoints that it finds, given what it wants them to be. -/
def endpointsChanged (old : Endpoints) (labels annotations : Dict String String)
    (subsets : List EndpointSubset) : Bool :=
  (!old.labels.same labels ||
    !(comparableAnnotations old.annotations).same (comparableAnnotations annotations)) ||
  (getOldEndpointsSet old).1 ≠ (getCurrentEndpointsSet subsets).1 ||
  (getOldEndpointsSet old).2 ≠ (getCurrentEndpointsSet subsets).2

/-! ## Routes -/

/-- Where the port of that name of a Service is routed to. -/
structure Route where
  ip : String
  portName : Option String
  port : Int
  protocol : String
  ready : Bool

def Route.endpoint (r : Route) : MuxEp × Bool := (⟨r.ip, r.port, r.protocol⟩, r.ready)

def EndpointSubset.ips (subset : EndpointSubset) (ready : Bool) : List String :=
  if ready then subset.addresses else subset.notReadyAddresses

/-- Kubernetes matches the ports of a Service and of its Endpoints by their names. -/
def routes (subsets : List EndpointSubset) : Set Route :=
  {r | ∃ subset ∈ subsets, r.ip ∈ subset.ips r.ready ∧
    ⟨r.portName, r.port, r.protocol⟩ ∈ subset.ports}

/-- An endpoint is in the ready or in the not-ready set. -/
def listed (sets : EndpointSets) (e : MuxEp × Bool) : Prop :=
  e.1 ∈ if e.2 then sets.1 else sets.2

def EndpointSubset.Lists (subset : EndpointSubset) (e : MuxEp × Bool) : Prop :=
  ∃ port ∈ subset.ports, ∃ ip ∈ subset.ips e.2, (⟨ip, port.port, port.protocol⟩ : MuxEp) = e.1

theorem exists_route_iff (subsets : List EndpointSubset) (e : MuxEp × Bool) :
    (∃ r ∈ routes subsets, r.endpoint = e) ↔ ∃ subset ∈ subsets, subset.Lists e := by
  constructor
  · rintro ⟨r, ⟨subset, hsubset, hip, hport⟩, rfl⟩
    exact ⟨subset, hsubset, _, hport, r.ip, hip, rfl⟩
  · rintro ⟨subset, hsubset, port, hport, ip, hip, he⟩
    exact ⟨⟨ip, port.name, port.port, port.protocol, e.2⟩, ⟨subset, hsubset, hip, hport⟩,
      Prod.ext he rfl⟩

theorem mem_addEndpoints (endpoints : Finset MuxEp) (port : EndpointPort) (ips : List String)
    (e : MuxEp) : e ∈ addEndpoints endpoints port ips ↔
      e ∈ endpoints ∨ ∃ ip ∈ ips, (⟨ip, port.port, port.protocol⟩ : MuxEp) = e := by
  refine Loop.foldl_adds (fun s e => e ∈ s) (fun ip e => (⟨ip, port.port, port.protocol⟩ : MuxEp) = e)
    ips (fun s ip _ e => ?_) endpoints e
  rw [Finset.mem_insert, or_comm, eq_comm]

theorem listed_getOldEndpointsSet (endpoints : Endpoints) (e : MuxEp × Bool) :
    listed (getOldEndpointsSet endpoints) e ↔
      ∃ r ∈ routes (endpoints.subsets.getD []), r.endpoint = e := by
  rw [exists_route_iff, getOldEndpointsSet]
  cases endpoints.subsets with
  | none => simp [listed]
  | some subsets =>
    have hempty : ¬ listed (∅, ∅) e := by simp [listed]
    refine (Loop.foldl_adds listed EndpointSubset.Lists subsets (fun sets subset _ e => ?_) _ e).trans
      (or_iff_right hempty)
    refine Loop.foldl_adds listed
      (fun port e => ∃ ip ∈ subset.ips e.2, (⟨ip, port.port, port.protocol⟩ : MuxEp) = e.1)
      subset.ports (fun sets port _ e => ?_) sets e
    obtain ⟨e, ready⟩ := e
    cases ready with
    | true => exact mem_addEndpoints _ _ _ _
    | false => exact mem_addEndpoints _ _ _ _

theorem listed_getCurrentEndpointsSet (subsets : List EndpointSubset) (e : MuxEp × Bool) :
    listed (getCurrentEndpointsSet subsets) e ↔ ∃ r ∈ routes subsets, r.endpoint = e := by
  rw [exists_route_iff]
  obtain ⟨e, ready⟩ := e
  cases ready with
  | true =>
    simp only [listed, getCurrentEndpointsSet, if_true, List.mem_toFinset, List.mem_flatMap,
      List.mem_map, EndpointSubset.Lists, EndpointSubset.ips]
    exact exists_congr fun subset => and_congr_right fun _ => by grind
  | false =>
    simp only [listed, getCurrentEndpointsSet, if_false, List.mem_toFinset, List.mem_flatMap,
      List.mem_map, EndpointSubset.Lists, EndpointSubset.ips, Bool.false_eq_true]
    exact exists_congr fun subset => and_congr_right fun _ => by grind

/-- A pass does not patch when the metadata and the endpoints, without their port names, are the
same. -/
theorem endpointsChanged_eq_false_iff (old : Endpoints) (labels annotations : Dict String String)
    (subsets : List EndpointSubset) :
    endpointsChanged old labels annotations subsets = false ↔
      old.labels.Same labels ∧
        (comparableAnnotations old.annotations).Same (comparableAnnotations annotations) ∧
        Route.endpoint '' routes (old.subsets.getD []) = Route.endpoint '' routes subsets := by
  have hsets : getOldEndpointsSet old = getCurrentEndpointsSet subsets ↔
      Route.endpoint '' routes (old.subsets.getD []) = Route.endpoint '' routes subsets := by
    have hold := listed_getOldEndpointsSet old
    have hcurrent := listed_getCurrentEndpointsSet subsets
    constructor
    · intro h
      ext e
      exact (hold e).symm.trans (h ▸ hcurrent e)
    · intro h
      have hlisted : ∀ e, listed (getOldEndpointsSet old) e ↔
          listed (getCurrentEndpointsSet subsets) e := fun e =>
        (hold e).trans ((Set.ext_iff.mp h e).trans (hcurrent e).symm)
      refine Prod.ext ?_ ?_
      · ext e
        exact hlisted (e, true)
      · ext e
        exact hlisted (e, false)
  rw [← hsets, Prod.ext_iff, ← Dict.same_iff, ← Dict.same_iff]
  simp only [endpointsChanged, Bool.or_eq_false_iff, Bool.not_eq_false', ne_eq,
    decide_eq_false_iff_not, not_not, and_assoc]

/-! ## What an unpatched object routes -/

/-- An endpoint that both sides list has the same port names on both sides. -/
def PortNamesAgree (old desired : Set Route) : Prop :=
  ∀ r ∈ old, ∀ r' ∈ desired, r.endpoint = r'.endpoint → r ∈ desired ∧ r' ∈ old

theorem routes_eq_iff_portNamesAgree {old desired : Set Route}
    (h : Route.endpoint '' old = Route.endpoint '' desired) :
    old = desired ↔ PortNamesAgree old desired := by
  constructor
  · rintro rfl r hr r' hr' _
    exact ⟨hr, hr'⟩
  · intro hagree
    ext r
    constructor
    · intro hr
      obtain ⟨r', hr', he⟩ := h ▸ Set.mem_image_of_mem Route.endpoint hr
      exact (hagree r hr r' hr' he.symm).1
    · intro hr
      obtain ⟨r', hr', he⟩ := h.symm ▸ Set.mem_image_of_mem Route.endpoint hr
      exact (hagree r' hr' r hr he).2

/-- Endpoints that a pass does not patch route as they should, if and only if something else changed
or no endpoint that stays has its port name changed. -/
theorem unpatched_endpoints_route_alike_iff (old : Endpoints)
    (labels annotations : Dict String String) (subsets : List EndpointSubset) :
    (endpointsChanged old labels annotations subsets = false →
      routes (old.subsets.getD []) = routes subsets) ↔
    (old.labels.Same labels →
      (comparableAnnotations old.annotations).Same (comparableAnnotations annotations) →
      Route.endpoint '' routes (old.subsets.getD []) = Route.endpoint '' routes subsets →
      PortNamesAgree (routes (old.subsets.getD [])) (routes subsets)) := by
  rw [endpointsChanged_eq_false_iff]
  constructor
  · intro h hlabels hannotations hendpoints
    exact (routes_eq_iff_portNamesAgree hendpoints).mp (h ⟨hlabels, hannotations, hendpoints⟩)
  · rintro h ⟨hlabels, hannotations, hendpoints⟩
    exact (routes_eq_iff_portNamesAgree hendpoints).mpr (h hlabels hannotations hendpoints)

/-- The Endpoints of the sample channel `web`, whose port has this name. -/
def webEndpoints (portName : String) : Dict (String × String) Endpoints :=
  Dict.ofList [(("default", "web"), ⟨Dict.empty, Dict.empty,
    some [⟨["10.0.0.1"], [], [⟨some portName, 8080, "TCP"⟩]⟩]⟩)]

/-- When the port `http` of `web` is renamed to `web`, the mux Endpoints keep the old name. -/
theorem renamed_port_unpatched :
    ∃ subsets subsets', collectChannelEndpoints sampleConfig (sampleChannel "web" "http" 80 [])
        (webEndpoints "http") = .ok subsets ∧
      collectChannelEndpoints sampleConfig (sampleChannel "web" "web" 80 []) (webEndpoints "web") =
        .ok subsets' ∧
      endpointsChanged ⟨Dict.empty, Dict.empty, some subsets⟩ Dict.empty Dict.empty subsets' = false ∧
      routes subsets ≠ routes subsets' := by
  refine ⟨[⟨["10.0.0.1"], [], [⟨some "07bb300", 8080, "TCP"⟩]⟩],
    [⟨["10.0.0.1"], [], [⟨some "44ee502", 8080, "TCP"⟩]⟩], by decide +kernel, by decide +kernel,
    by decide +kernel, fun h => ?_⟩
  have hroute : (⟨"10.0.0.1", some "07bb300", 8080, "TCP", true⟩ : Route) ∈
      routes [⟨["10.0.0.1"], [], [⟨some "07bb300", 8080, "TCP"⟩]⟩] := by
    simp [routes, EndpointSubset.ips]
  rw [h] at hroute
  simp [routes, EndpointSubset.ips] at hroute

end SvcLbMux
