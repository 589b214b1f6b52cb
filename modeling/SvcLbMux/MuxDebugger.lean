import SvcLbMux.PortReaders
import SvcLbMux.Refs

namespace SvcLbMux

open Py

namespace MuxDebugger

/-! ## What the tool reads -/

structure TargetRef where
  kind : String
  name : String
  namespace_ : String
deriving DecidableEq

structure EndpointAddress where
  ip : String
  nodeName : Option String
  targetRef : Option TargetRef
deriving DecidableEq

structure AddressSubset where
  addresses : List EndpointAddress
  notReadyAddresses : List EndpointAddress
deriving DecidableEq

structure DebuggedPort where
  name : Option String
  port : Int
  protocol : Option String
  nodePort : Option Int
deriving DecidableEq

structure DebuggedService where
  namespace_ : String
  name : String
  annotations : Dict String String
  loadBalancerClass : Option String
  ports : List DebuggedPort

def DebuggedService.key (svc : DebuggedService) : String × String := (svc.namespace_, svc.name)

/-- `spec.get("loadBalancerClass", "")`. -/
def DebuggedService.lbClass (svc : DebuggedService) : String := svc.loadBalancerClass.getD ""

/-- The Services and the Endpoints of a cluster; a name is given once in a namespace. -/
structure Cluster where
  services : List DebuggedService
  endpoints : Dict (String × String) (List AddressSubset)
  distinct : (services.map DebuggedService.key).Nodup

/-! ## What it shows -/

structure PodInfo where
  name : String
  namespace_ : String
  ip : String
  node : Option String
  ready : Bool
deriving DecidableEq

structure PortRoute where
  muxPort : Int
  protocol : String
  channelName : String
  channelNamespace : String
  channelPort : Int
  nodePort : Option Int
  targetPods : List PodInfo
  channelExternalDns : Option String
deriving DecidableEq

def PortRoute.channelKey (route : PortRoute) : String × String :=
  (route.channelNamespace, route.channelName)

def podInfo (ready : Bool) (addr : EndpointAddress) : Option PodInfo :=
  match addr.targetRef with
  | none => none
  | some targetRef =>
    if targetRef.kind = "Pod" then
      some ⟨targetRef.name, targetRef.namespace_, addr.ip, addr.nodeName, ready⟩
    else none

def extractPodInfos (subsets : List AddressSubset) : List PodInfo :=
  subsets.flatMap fun subset =>
    subset.addresses.filterMap (podInfo true) ++ subset.notReadyAddresses.filterMap (podInfo false)

variable (cfg : Config)

/-- `_parse_mux_from_lb_class`: the name and the namespace of the mux. -/
def parseMuxFromLbClass (lbClass defaultNamespace : String) : Except ValueError (String × String) :=
  let lbPrefix := cfg.apiPrefix ++ "/"
  if !lbPrefix.toList.isPrefixOf lbClass.toList then
    .error ⟨"Invalid loadBalancerClass: " ++ lbClass⟩
  else
    match split (String.ofList (lbClass.toList.drop lbPrefix.toList.length)) '.' with
    | [muxName, muxNs] => .ok (muxName, muxNs)
    | parts => .ok (parts.headD "", defaultNamespace)

/-- `mux_ports_by_name.get(port_name, port.get("port"))`. -/
def shownMuxPort (muxPortsByName : Dict String Int) (port : DebuggedPort) : Int :=
  (port.name.bind muxPortsByName.get).getD port.port

/-- The route of a port; a mux port of zero is no route. -/
def portRoute (svc : DebuggedService) (muxPortsByName : Dict String Int) (podInfos : List PodInfo)
    (port : DebuggedPort) : Option PortRoute :=
  let muxPort := shownMuxPort muxPortsByName port
  if muxPort = 0 then none
  else
    some
      { muxPort := muxPort
        protocol := port.protocol.getD "TCP"
        channelName := svc.name
        channelNamespace := svc.namespace_
        channelPort := port.port
        nodePort := port.nodePort
        targetPods := podInfos
        channelExternalDns := svc.annotations.get externalDnsHostnameAnnotation }

/-- The mux ports that the `ports` annotation of a channel lists. -/
def muxPortsByName (svc : DebuggedService) : Except ValueError (Dict String Int) :=
  parseChannelPortMappings ((svc.annotations.get cfg.annotationPorts).getD "")

/-- The routes of a channel, which raise where its `ports` annotation does. -/
def channelRoutes (cluster : Cluster) (svc : DebuggedService) : Except ValueError (List PortRoute) :=
  (muxPortsByName cfg svc).map fun muxPortsByName =>
    let podInfos := match cluster.endpoints.get svc.key with
      | none => []
      | some subsets => extractPodInfos subsets
    svc.ports.filterMap (portRoute svc muxPortsByName podInfos)

def serviceRoutes (cluster : Cluster) (muxName muxNamespace : String) (routes : List PortRoute)
    (svc : DebuggedService) : Except ValueError (List PortRoute) :=
  if !(cfg.apiPrefix ++ "/").toList.isPrefixOf svc.lbClass.toList then .ok routes
  else
    match parseMuxFromLbClass cfg svc.lbClass muxNamespace with
    | .error _ => .ok routes
    | .ok (svcMuxName, svcMuxNs) =>
      if svcMuxName ≠ muxName ∨ svcMuxNs ≠ muxNamespace then .ok routes
      else (channelRoutes cfg cluster svc).map fun own => routes ++ own

/-- `_build_routes`. -/
def buildRoutes (cluster : Cluster) (muxName muxNamespace : String) :
    Except ValueError (List PortRoute) :=
  cluster.services.foldlM (serviceRoutes cfg cluster muxName muxNamespace) []

/-! ## Which mux a class is attributed to -/

/-- The tool takes the class for a reference to the mux. -/
def Attributed (muxNs muxName cls : String) : Prop :=
  parseMuxFromLbClass cfg cls muxNs = .ok (muxName, muxNs)

/-- The controller takes the class for a reference to the mux. -/
def MapsTo (muxNs muxName cls : String) : Prop :=
  getMuxFromLbClass cfg cls = .ok (muxNs, muxName)

/-- Without a namespace the class names the mux, which is not in the default namespace or has no
valid name; with a namespace it names the mux, whose name or namespace is not valid; or the first of
three or more parts is the name of the mux. -/
def Misattributed (muxNs muxName cls : String) : Prop :=
  ∃ ref, cls = cfg.apiPrefix ++ "/" ++ ref ∧
    ((split ref '.' = [muxName] ∧
        ¬ (muxNs = cfg.defaultMuxNamespace ∧ AcceptedLabel muxName ∧ AcceptedLabel muxNs)) ∨
      (split ref '.' = [muxName, muxNs] ∧ ¬ (AcceptedLabel muxName ∧ AcceptedLabel muxNs)) ∨
      ∃ second third rest, split ref '.' = muxName :: second :: third :: rest)

variable {cfg} {cluster : Cluster} {muxNs muxName : String}

theorem attributed_iff_split (cls : String) :
    Attributed cfg muxNs muxName cls ↔ ∃ ref, cls = cfg.apiPrefix ++ "/" ++ ref ∧
      (split ref '.' = [muxName] ∨ split ref '.' = [muxName, muxNs] ∨
        ∃ second third rest, split ref '.' = muxName :: second :: third :: rest) := by
  unfold Attributed parseMuxFromLbClass
  dsimp only
  obtain ⟨ref, rfl, hstarts, hdrop⟩ | ⟨hstarts, hnone⟩ := prefix_cases (cfg.apiPrefix ++ "/") cls
  · rw [hstarts, hdrop, Bool.not_true, if_neg Bool.false_ne_true]
    have hpair : ∀ ref', cfg.apiPrefix ++ "/" ++ ref = cfg.apiPrefix ++ "/" ++ ref' ↔ ref' = ref :=
      fun ref' => ⟨fun heq => (append_left_cancel heq).symm, fun heq => heq ▸ rfl⟩
    simp only [hpair, exists_eq_left]
    have hne := split_ne_nil ref '.'
    generalize split ref '.' = parts at hne ⊢
    rcases parts with _ | ⟨name, _ | ⟨second, _ | ⟨third, rest⟩⟩⟩
    · exact absurd rfl hne
    · simp
    · simp
    · simp
  · rw [hstarts]
    refine iff_of_false (fun h => ?_) fun ⟨ref, heq, _⟩ => hnone ref heq
    cases h

/-- The tool attributes a class to the mux if the controller maps it there, and otherwise by mistake. -/
theorem attributed_iff (cls : String) :
    Attributed cfg muxNs muxName cls ↔
      MapsTo cfg muxNs muxName cls ∨ Misattributed cfg muxNs muxName cls := by
  rw [attributed_iff_split, MapsTo, getMuxFromLbClass_ok_iff_split, Misattributed]
  constructor
  · rintro ⟨ref, hcls, hone | htwo | hmore⟩
    · by_cases hvalid : muxNs = cfg.defaultMuxNamespace ∧ AcceptedLabel muxName ∧ AcceptedLabel muxNs
      · exact Or.inl ⟨ref, hcls, hvalid.2.1, hvalid.2.2, Or.inl ⟨hone, hvalid.1⟩⟩
      · exact Or.inr ⟨ref, hcls, Or.inl ⟨hone, hvalid⟩⟩
    · by_cases hvalid : AcceptedLabel muxName ∧ AcceptedLabel muxNs
      · exact Or.inl ⟨ref, hcls, hvalid.1, hvalid.2, Or.inr htwo⟩
      · exact Or.inr ⟨ref, hcls, Or.inr (Or.inl ⟨htwo, hvalid⟩)⟩
    · exact Or.inr ⟨ref, hcls, Or.inr (Or.inr hmore)⟩
  · rintro (⟨ref, hcls, -, -, ⟨hone, -⟩ | htwo⟩ | ⟨ref, hcls, ⟨hone, -⟩ | ⟨htwo, -⟩ | hmore⟩)
    · exact ⟨ref, hcls, Or.inl hone⟩
    · exact ⟨ref, hcls, Or.inr (Or.inl htwo)⟩
    · exact ⟨ref, hcls, Or.inl hone⟩
    · exact ⟨ref, hcls, Or.inr (Or.inl htwo)⟩
    · exact ⟨ref, hcls, Or.inr (Or.inr hmore)⟩

theorem not_mapsTo_of_misattributed {cls : String} (h : Misattributed cfg muxNs muxName cls) :
    ¬ MapsTo cfg muxNs muxName cls := by
  rw [MapsTo, getMuxFromLbClass_ok_iff_split]
  rintro ⟨ref, hcls, hname, hns, hsplit⟩
  obtain ⟨ref', hcls', hmistake⟩ := h
  obtain rfl : ref = ref' := append_left_cancel (hcls.symm.trans hcls')
  rcases hsplit with ⟨hone, hdefault⟩ | htwo
  · rcases hmistake with ⟨-, hinvalid⟩ | ⟨htwo, -⟩ | ⟨_, _, _, hmore⟩
    · exact hinvalid ⟨hdefault, hname, hns⟩
    · simp [hone] at htwo
    · simp [hone] at hmore
  · rcases hmistake with ⟨hone, -⟩ | ⟨-, hinvalid⟩ | ⟨_, _, _, hmore⟩
    · simp [htwo] at hone
    · exact hinvalid ⟨hname, hns⟩
    · simp [htwo] at hmore

/-! ## What is listed -/

/-- The `ports` annotation of a Service can be read. -/
def Readable (cfg : Config) (svc : DebuggedService) : Prop :=
  ∃ mappings, muxPortsByName cfg svc = .ok mappings

/-- Every port of a Service is listed, or else declared, with the number zero. -/
def Portless (cfg : Config) (svc : DebuggedService) : Prop :=
  ∀ mappings, muxPortsByName cfg svc = .ok mappings →
    ∀ port ∈ svc.ports, shownMuxPort mappings port = 0

/-- The routes of a channel among those of a mux. -/
def routesOf (svc : DebuggedService) (routes : List PortRoute) : List PortRoute :=
  routes.filter fun route => route.channelKey = svc.key

/-- The tool shows the routes of the channel under the mux if and only if the controller maps the
channel to the mux. -/
def ListedAsMapped (cfg : Config) (cluster : Cluster) (muxNs muxName : String)
    (svc : DebuggedService) : Prop :=
  ∃ routes, buildRoutes cfg cluster muxName muxNs = .ok routes ∧
    (MapsTo cfg muxNs muxName svc.lbClass →
      channelRoutes cfg cluster svc = .ok (routesOf svc routes)) ∧
    (¬ MapsTo cfg muxNs muxName svc.lbClass → routesOf svc routes = [])

theorem serviceRoutes_of_attributed {svc : DebuggedService}
    (h : Attributed cfg muxNs muxName svc.lbClass) (routes : List PortRoute) :
    serviceRoutes cfg cluster muxName muxNs routes svc =
      (channelRoutes cfg cluster svc).map fun own => routes ++ own := by
  have hstarts : (cfg.apiPrefix ++ "/").toList.isPrefixOf svc.lbClass.toList = true := by
    obtain ⟨ref, hcls, -⟩ := (attributed_iff_split _).mp h
    obtain ⟨-, -, hstarts, -⟩ | ⟨-, hnone⟩ := prefix_cases (cfg.apiPrefix ++ "/") svc.lbClass
    · exact hstarts
    · exact absurd hcls (hnone ref)
  rw [Attributed] at h
  rw [serviceRoutes, hstarts, h]
  simp

theorem serviceRoutes_of_not_attributed {svc : DebuggedService}
    (h : ¬ Attributed cfg muxNs muxName svc.lbClass) (routes : List PortRoute) :
    serviceRoutes cfg cluster muxName muxNs routes svc = .ok routes := by
  unfold serviceRoutes
  split_ifs with hstarts
  · rfl
  · cases hparse : parseMuxFromLbClass cfg svc.lbClass muxNs with
    | error e => rfl
    | ok mux =>
      dsimp only
      rw [if_pos]
      by_contra hsame
      rw [not_or, not_not, not_not] at hsame
      exact h (hparse.trans (congrArg _ (Prod.ext hsame.1 hsame.2)))

theorem serviceRoutes_cases {svc : DebuggedService} {routes routes' : List PortRoute}
    (h : serviceRoutes cfg cluster muxName muxNs routes svc = .ok routes') :
    (Attributed cfg muxNs muxName svc.lbClass ∧
      ∃ own, channelRoutes cfg cluster svc = .ok own ∧ routes' = routes ++ own) ∨
    ¬ Attributed cfg muxNs muxName svc.lbClass ∧ routes' = routes := by
  by_cases hattributed : Attributed cfg muxNs muxName svc.lbClass
  · rw [serviceRoutes_of_attributed hattributed] at h
    cases hown : channelRoutes cfg cluster svc with
    | error e =>
      rw [hown] at h
      cases h
    | ok own =>
      rw [hown] at h
      exact Or.inl ⟨hattributed, own, rfl, (Except.ok.inj h).symm⟩
  · rw [serviceRoutes_of_not_attributed hattributed] at h
    exact Or.inr ⟨hattributed, (Except.ok.inj h).symm⟩

theorem serviceRoutes_ok_iff (routes : List PortRoute) (svc : DebuggedService) :
    (∃ routes', serviceRoutes cfg cluster muxName muxNs routes svc = .ok routes') ↔
      (Attributed cfg muxNs muxName svc.lbClass → Readable cfg svc) := by
  by_cases hattributed : Attributed cfg muxNs muxName svc.lbClass
  · rw [serviceRoutes_of_attributed hattributed, Readable, channelRoutes]
    cases muxPortsByName cfg svc with
    | error e => simp [Except.map, hattributed]
    | ok mappings => simp [Except.map]
  · rw [serviceRoutes_of_not_attributed hattributed]
    exact iff_of_true ⟨routes, rfl⟩ fun h => absurd h hattributed

theorem buildRoutes_ok_iff :
    (∃ routes, buildRoutes cfg cluster muxName muxNs = .ok routes) ↔
      ∀ svc ∈ cluster.services, Attributed cfg muxNs muxName svc.lbClass →
        Readable cfg svc :=
  Loop.foldlM_ok_iff _ serviceRoutes_ok_iff []

theorem channelRoutes_eq_ok {svc : DebuggedService} {own : List PortRoute}
    (h : channelRoutes cfg cluster svc = .ok own) : ∃ mappings podInfos,
      muxPortsByName cfg svc = .ok mappings ∧
        own = svc.ports.filterMap (portRoute svc mappings podInfos) := by
  unfold channelRoutes at h
  cases hmappings : muxPortsByName cfg svc with
  | error e =>
    rw [hmappings] at h
    cases h
  | ok mappings =>
    rw [hmappings] at h
    exact ⟨mappings, _, rfl, (Except.ok.inj h).symm⟩

theorem portRoute_eq_none_iff (svc : DebuggedService) (mappings : Dict String Int)
    (podInfos : List PodInfo) (port : DebuggedPort) :
    portRoute svc mappings podInfos port = none ↔ shownMuxPort mappings port = 0 := by
  unfold portRoute
  dsimp only
  split_ifs with h
  · exact iff_of_true rfl h
  · exact iff_of_false (by simp) h

/-- A channel has no routes exactly when its ports are shown with the number zero. -/
theorem channelRoutes_nil_iff {svc : DebuggedService} {own : List PortRoute}
    (h : channelRoutes cfg cluster svc = .ok own) : own = [] ↔ Portless cfg svc := by
  obtain ⟨mappings, podInfos, hmappings, rfl⟩ := channelRoutes_eq_ok h
  rw [List.filterMap_eq_nil_iff]
  simp only [portRoute_eq_none_iff, Portless, hmappings, Except.ok.injEq, forall_eq']

theorem channelKey_of_mem {svc : DebuggedService} {own : List PortRoute}
    (h : channelRoutes cfg cluster svc = .ok own) {route : PortRoute} (hroute : route ∈ own) :
    route.channelKey = svc.key := by
  obtain ⟨mappings, podInfos, -, rfl⟩ := channelRoutes_eq_ok h
  obtain ⟨port, -, hport⟩ := List.mem_filterMap.mp hroute
  unfold portRoute at hport
  dsimp only at hport
  split_ifs at hport
  rw [← Option.some.inj hport]
  rfl

theorem routesOf_append (svc : DebuggedService) (routes routes' : List PortRoute) :
    routesOf svc (routes ++ routes') = routesOf svc routes ++ routesOf svc routes' :=
  List.filter_append ..

theorem routesOf_own {svc : DebuggedService} {own : List PortRoute}
    (h : channelRoutes cfg cluster svc = .ok own) : routesOf svc own = own := by
  rw [routesOf, List.filter_eq_self]
  exact fun route hroute => decide_eq_true (channelKey_of_mem h hroute)

theorem routesOf_other {svc other : DebuggedService} {own : List PortRoute}
    (h : channelRoutes cfg cluster other = .ok own) (hne : other.key ≠ svc.key) :
    routesOf svc own = [] := by
  rw [routesOf, List.filter_eq_nil_iff]
  intro route hroute
  rw [channelKey_of_mem h hroute]
  simpa using hne

section Rounds

variable {svc : DebuggedService} {services : List DebuggedService} {routes routes' : List PortRoute}

theorem routesOf_serviceRoutes_of_ne {other : DebuggedService} (hne : other.key ≠ svc.key)
    (h : serviceRoutes cfg cluster muxName muxNs routes other = .ok routes') :
    routesOf svc routes' = routesOf svc routes := by
  obtain ⟨-, own, hown, rfl⟩ | ⟨-, rfl⟩ := serviceRoutes_cases h
  · rw [routesOf_append, routesOf_other hown hne, List.append_nil]
  · rfl

theorem routesOf_foldlM_of_notMem (hnot : svc.key ∉ services.map DebuggedService.key)
    (h : services.foldlM (serviceRoutes cfg cluster muxName muxNs) routes = .ok routes') :
    routesOf svc routes' = routesOf svc routes := by
  induction services generalizing routes with
  | nil => rw [Except.ok.inj h]
  | cons other services ih =>
    rw [List.map_cons, List.mem_cons, not_or] at hnot
    obtain ⟨mid, hround, hrest⟩ := Loop.foldlM_cons_eq_ok.mp h
    rw [ih hnot.2 hrest, routesOf_serviceRoutes_of_ne (Ne.symm hnot.1) hround]

/-- The loop adds the routes of a channel if it is attributed, and nothing else of it. -/
theorem routesOf_foldlM (hdistinct : (services.map DebuggedService.key).Nodup)
    (hsvc : svc ∈ services)
    (h : services.foldlM (serviceRoutes cfg cluster muxName muxNs) routes = .ok routes') :
    (Attributed cfg muxNs muxName svc.lbClass → ∃ own, channelRoutes cfg cluster svc = .ok own ∧
      routesOf svc routes' = routesOf svc routes ++ own) ∧
    (¬ Attributed cfg muxNs muxName svc.lbClass →
      routesOf svc routes' = routesOf svc routes) := by
  induction services generalizing routes with
  | nil => simp at hsvc
  | cons other services ih =>
    rw [List.map_cons, List.nodup_cons] at hdistinct
    obtain ⟨mid, hround, hrest⟩ := Loop.foldlM_cons_eq_ok.mp h
    rcases List.mem_cons.mp hsvc with rfl | hsvc
    · rw [routesOf_foldlM_of_notMem hdistinct.1 hrest]
      obtain ⟨hattributed, own, hown, rfl⟩ | ⟨hnot, rfl⟩ := serviceRoutes_cases hround
      · refine ⟨fun _ => ⟨own, hown, ?_⟩, fun hnot => absurd hattributed hnot⟩
        rw [routesOf_append, routesOf_own hown]
      · exact ⟨fun hattributed => absurd hattributed hnot, fun _ => rfl⟩
    · have hne : other.key ≠ svc.key := fun heq =>
        hdistinct.1 (heq ▸ List.mem_map_of_mem hsvc)
      rw [← routesOf_serviceRoutes_of_ne hne hround]
      exact ih hdistinct.2 hsvc hrest

end Rounds

theorem routesOf_buildRoutes {svc : DebuggedService} (hsvc : svc ∈ cluster.services)
    {routes : List PortRoute} (h : buildRoutes cfg cluster muxName muxNs = .ok routes) :
    (Attributed cfg muxNs muxName svc.lbClass →
      channelRoutes cfg cluster svc = .ok (routesOf svc routes)) ∧
    (¬ Attributed cfg muxNs muxName svc.lbClass → routesOf svc routes = []) := by
  obtain ⟨hattributed, hnot⟩ := routesOf_foldlM cluster.distinct hsvc h
  refine ⟨fun hyes => ?_, hnot⟩
  obtain ⟨own, hown, hroutes⟩ := hattributed hyes
  rw [hown, hroutes]
  rfl

/-- The tool shows a channel where the controller puts it if and only if the annotations of all the
channels that it attributes to the mux can be read, and it does not attribute the channel to the mux
by mistake, or by mistake but without a port to show. -/
theorem listed_as_mapped_iff (cfg : Config) (cluster : Cluster) (muxNs muxName : String)
    (svc : DebuggedService) (hsvc : svc ∈ cluster.services) :
    ListedAsMapped cfg cluster muxNs muxName svc ↔
      (∀ other ∈ cluster.services, Attributed cfg muxNs muxName other.lbClass →
        Readable cfg other) ∧
      (Misattributed cfg muxNs muxName svc.lbClass → Portless cfg svc) := by
  rw [← buildRoutes_ok_iff]
  constructor
  · rintro ⟨routes, hbuild, -, hunmapped⟩
    refine ⟨⟨routes, hbuild⟩, fun hmistake => ?_⟩
    have hattributed := (attributed_iff svc.lbClass).mpr (Or.inr hmistake)
    exact (channelRoutes_nil_iff ((routesOf_buildRoutes hsvc hbuild).1 hattributed)).mp
      (hunmapped (not_mapsTo_of_misattributed hmistake))
  · rintro ⟨⟨routes, hbuild⟩, hmistake⟩
    obtain ⟨hattributed, hnot⟩ := routesOf_buildRoutes hsvc hbuild
    refine ⟨routes, hbuild, fun hmaps => hattributed ((attributed_iff _).mpr (Or.inl hmaps)),
      fun hunmapped => ?_⟩
    by_cases hyes : Attributed cfg muxNs muxName svc.lbClass
    · have hportless := hmistake (((attributed_iff _).mp hyes).resolve_left hunmapped)
      exact (channelRoutes_nil_iff (hattributed hyes)).mpr hportless
    · exact hnot hyes

/-- Two channels: one of the mux in the default namespace, one with a class that the controller
rejects. -/
def debuggedWeb : DebuggedService where
  namespace_ := "app"
  name := "web"
  annotations := Dict.ofList [("svc-mux.nowake.ai/ports", "http:8080->20000")]
  loadBalancerClass := some "svc-mux.nowake.ai/mux"
  ports := [⟨some "http", 8080, some "TCP", none⟩]

def debuggedApi : DebuggedService where
  namespace_ := "app"
  name := "api"
  annotations := Dict.empty
  loadBalancerClass := some "svc-mux.nowake.ai/mux.edge.internal"
  ports := [⟨some "http", 80, none, none⟩]

def debuggedCluster : Cluster := ⟨[debuggedWeb, debuggedApi], Dict.empty, by decide +kernel⟩

def debuggedRoutes : List PortRoute :=
  [⟨20000, "TCP", "web", "app", 8080, none, [], none⟩, ⟨80, "TCP", "api", "app", 80, none, [], none⟩]

/-- Both are shown under the mux of that name in another namespace. -/
theorem listed_elsewhere :
    getMuxFromLbClass sampleConfig debuggedWeb.lbClass = .ok ("default", "mux") ∧
    (getMuxFromLbClass sampleConfig debuggedApi.lbClass).toOption = none ∧
    buildRoutes sampleConfig debuggedCluster "mux" "edge" = .ok debuggedRoutes ∧
    ¬ ListedAsMapped sampleConfig debuggedCluster "edge" "mux" debuggedWeb ∧
    ¬ ListedAsMapped sampleConfig debuggedCluster "edge" "mux" debuggedApi := by
  have hweb : getMuxFromLbClass sampleConfig debuggedWeb.lbClass = .ok ("default", "mux") := by
    decide +kernel
  have hapi : (getMuxFromLbClass sampleConfig debuggedApi.lbClass).toOption = none := by
    decide +kernel
  have hbuild : buildRoutes sampleConfig debuggedCluster "mux" "edge" = .ok debuggedRoutes := by
    decide +kernel
  have hshown : ∀ svc, routesOf svc debuggedRoutes ≠ [] →
      ¬ MapsTo sampleConfig "edge" "mux" svc.lbClass →
      ¬ ListedAsMapped sampleConfig debuggedCluster "edge" "mux" svc := by
    rintro svc hroutes hunmapped ⟨routes, hroutes', -, hempty⟩
    obtain rfl := Except.ok.inj (hbuild.symm.trans hroutes')
    exact hroutes (hempty hunmapped)
  refine ⟨hweb, hapi, hbuild, hshown debuggedWeb (by decide +kernel) fun hmaps => ?_,
    hshown debuggedApi (by decide +kernel) fun hmaps => ?_⟩
  · exact absurd (hweb.symm.trans hmaps) (by decide +kernel)
  · rw [MapsTo] at hmaps
    rw [hmaps] at hapi
    cases hapi

theorem listed_as_mapped_default :
    ListedAsMapped sampleConfig debuggedCluster "default" "mux" debuggedWeb ↔
      (∀ other ∈ debuggedCluster.services,
        Attributed sampleConfig "default" "mux" other.lbClass → Readable sampleConfig other) ∧
      (Misattributed sampleConfig "default" "mux" debuggedWeb.lbClass →
        Portless sampleConfig debuggedWeb) :=
  listed_as_mapped_iff sampleConfig debuggedCluster "default" "mux" debuggedWeb
    (by simp [debuggedCluster])

end MuxDebugger

end SvcLbMux
