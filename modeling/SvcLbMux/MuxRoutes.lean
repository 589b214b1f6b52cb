import SvcLbMux.ExclusivePorts
import SvcLbMux.Iteration

namespace SvcLbMux

open Py

variable {cfg : Config} {memoEndpoints : MemoEndpoints}

/-- The name under which the mux Service and the mux Endpoints have a port of a channel. -/
def Channel.hashedName (cfg : Config) (c : Channel) (name : String) : String :=
  portHash cfg [c.namespace_, c.name, name]

def Route.hashed (cfg : Config) (c : Channel) (r : Route) : Route :=
  { r with portName := r.portName.map (c.hashedName cfg) }

@[simp] theorem endpoint_hashed (c : Channel) (r : Route) :
    (r.hashed cfg c).endpoint = r.endpoint := rfl

/-- What is reached under a port name: address, target port and protocol, and whether ready. -/
def endpointsUnder (subsets : List EndpointSubset) (portName : String) : Set (MuxEp × Bool) :=
  {e | ∃ r ∈ routes subsets, r.portName = some portName ∧ r.endpoint = e}

/-! ## The routes of one channel -/

theorem muxEndpointPort_eq_ok {c : Channel} {port muxed : EndpointPort} :
    muxEndpointPort cfg c port = .ok muxed ↔
      ∃ name, port.name = some name ∧ muxed = ⟨some (c.hashedName cfg name), port.port,
        port.protocol⟩ := by
  unfold muxEndpointPort
  cases port.name with
  | none => simp
  | some name => simp [Channel.hashedName, eq_comm]

theorem hasAddress_of_mem_ips {subset : EndpointSubset} {ip : String} {ready : Bool}
    (h : ip ∈ subset.ips ready) : subset.hasAddress = true := by
  have hne := List.ne_nil_of_mem h
  cases ready with
  | true => simp [EndpointSubset.hasAddress, show subset.addresses ≠ [] from hne]
  | false => simp [EndpointSubset.hasAddress, show subset.notReadyAddresses ≠ [] from hne]

theorem mem_routes_collect {c : Channel} {chEndpoints : List EndpointSubset}
    (h : collectChannelEndpoints cfg c memoEndpoints = .ok chEndpoints) (r : Route) :
    r ∈ routes chEndpoints ↔
      ∃ r' ∈ routes (cachedSubsets memoEndpoints c), r = r'.hashed cfg c := by
  have hnamed := (collectChannelEndpoints_ok_iff cfg).mp ⟨chEndpoints, h⟩
  rw [collectChannelEndpoints_eq] at h
  constructor
  · rintro ⟨muxed, hmuxed, hip, hport⟩
    obtain ⟨subset, hsubset, hmux⟩ := (Loop.mem_of_mapM h muxed).mp hmuxed
    obtain ⟨haddresses, hnotReady, hports⟩ := muxSubset_eq_ok hmux
    obtain ⟨port, hmem, hok⟩ := (Loop.mem_of_mapM hports _).mp hport
    obtain ⟨name, hname, heq⟩ := muxEndpointPort_eq_ok.mp hok
    obtain ⟨hportName, hnumber, hprotocol⟩ := EndpointPort.mk.inj heq
    refine ⟨⟨r.ip, some name, r.port, r.protocol, r.ready⟩,
      ⟨subset, (List.mem_filter.mp hsubset).1, ?_, ?_⟩, ?_⟩
    · rwa [EndpointSubset.ips, haddresses, hnotReady] at hip
    · rw [← hname, hnumber, hprotocol]
      exact hmem
    · cases r
      simp only [Route.hashed, Option.map_some, Route.mk.injEq, true_and, and_true]
      exact hportName
  · rintro ⟨r', ⟨subset, hsubset, hip, hport⟩, rfl⟩
    have hserved := hasAddress_of_mem_ips hip
    obtain ⟨muxed, hmux⟩ := muxSubset_ok_iff.mpr (hnamed subset hsubset hserved)
    obtain ⟨haddresses, hnotReady, hports⟩ := muxSubset_eq_ok hmux
    refine ⟨muxed, (Loop.mem_of_mapM h muxed).mpr
      ⟨subset, List.mem_filter.mpr ⟨hsubset, hserved⟩, hmux⟩, ?_, ?_⟩
    · rw [EndpointSubset.ips, haddresses, hnotReady]
      exact hip
    · obtain ⟨name, hname⟩ := Option.ne_none_iff_exists'.mp (hnamed subset hsubset hserved _ hport)
      refine (Loop.mem_of_mapM hports _).mpr ⟨_, hport, muxEndpointPort_eq_ok.mpr ⟨name, hname, ?_⟩⟩
      have hportName : r'.portName = some name := hname
      simp [Route.hashed, hportName]

/-! ## The routes of the mux -/

theorem mem_channels_of_reconcile {input : PassInput} {r : IterationResult}
    (hr : reconcileChannels cfg input memoEndpoints = .ok r) {c : Channel} {outcome : Outcome}
    (h : (c, outcome) ∈ r.reports) : c ∈ input.channels := by
  obtain ⟨start, final, -, hrun, -⟩ := reconcileChannels_eq_ok hr
  rw [← mem_sortChannels, ← Loop.map_fst_run hrun]
  exact List.mem_map_of_mem h

theorem mem_routes_mux {input : PassInput} {r : IterationResult}
    (hr : reconcileChannels cfg input memoEndpoints = .ok r) (route : Route) :
    route ∈ routes r.endpoints ↔ ∃ c resolved, (c, .accepted resolved) ∈ r.reports ∧
      ∃ route' ∈ routes (cachedSubsets memoEndpoints c), route = route'.hashed cfg c := by
  obtain ⟨start, final, -, hrun, -, hendpoints, -⟩ := reconcileChannels_eq_ok hr
  have hmem := mem_endpoints_run rfl hrun
  rw [hendpoints] at hmem
  constructor
  · rintro ⟨subset, hsubset, hroute⟩
    obtain ⟨c, resolved, chEndpoints, hreport, hcollect, hin⟩ := (hmem subset).mp hsubset
    exact ⟨c, resolved, hreport,
      (mem_routes_collect hcollect route).mp ⟨subset, hin, hroute⟩⟩
  · rintro ⟨c, resolved, hreport, hroute⟩
    obtain ⟨chEndpoints, hcollect⟩ :=
      (collectChannelEndpoints_ok_iff cfg).mpr (endpointPortsNamed_of_run hrun hreport)
    obtain ⟨subset, hin, hroute⟩ := (mem_routes_collect hcollect route).mpr hroute
    exact ⟨subset, (hmem subset).mpr ⟨c, resolved, chEndpoints, hreport, hcollect, hin⟩, hroute⟩

/-- The names that are hashed for a channel: of its ports and of the ports of its Endpoints. -/
def HashesName (memoEndpoints : MemoEndpoints) (c : Channel) (name : String) : Prop :=
  (∃ p ∈ c.ports, p.portName = name) ∨
    ∃ subset ∈ cachedSubsets memoEndpoints c, ∃ port ∈ subset.ports, port.name = some name

/-- The digest does not collide on the names that are hashed for the channels. -/
def HashInjectiveOn (cfg : Config) (memoEndpoints : MemoEndpoints) (channels : List Channel) :
    Prop :=
  ∀ c ∈ channels, ∀ d ∈ channels, ∀ n m, HashesName memoEndpoints c n → HashesName memoEndpoints d m →
    c.hashedName cfg n = d.hashedName cfg m → c.key = d.key ∧ n = m

theorem hashesName_of_route {c : Channel} {r : Route} {name : String}
    (h : r ∈ routes (cachedSubsets memoEndpoints c)) (hname : r.portName = some name) :
    HashesName memoEndpoints c name := by
  obtain ⟨subset, hsubset, -, hport⟩ := h
  exact Or.inr ⟨subset, hsubset, _, hport, hname⟩

theorem hashed_congr {c d : Channel} (h : c.key = d.key) (r : Route) :
    r.hashed cfg c = r.hashed cfg d := by
  obtain ⟨hns, hname⟩ := Prod.mk.inj h
  have hnames : c.hashedName cfg = d.hashedName cfg := by
    funext name
    rw [Channel.hashedName, Channel.hashedName, hns, hname]
  rw [Route.hashed, Route.hashed, hnames]

/-- What is reached under the hashed name of a port is what accepted channels of its key, which can
be one only, have under its name. -/
theorem mem_endpointsUnder_hashedName {input : PassInput} {r : IterationResult}
    (hr : reconcileChannels cfg input memoEndpoints = .ok r)
    (hinj : HashInjectiveOn cfg memoEndpoints input.channels) {c : Channel}
    (hc : c ∈ input.channels) {name : String} (hname : HashesName memoEndpoints c name)
    (e : MuxEp × Bool) :
    e ∈ endpointsUnder r.endpoints (c.hashedName cfg name) ↔
      (∃ d resolved, (d, .accepted resolved) ∈ r.reports ∧ d.key = c.key) ∧
        e ∈ endpointsUnder (cachedSubsets memoEndpoints c) name := by
  have hsubsets : ∀ d : Channel, d.key = c.key →
      cachedSubsets memoEndpoints d = cachedSubsets memoEndpoints c := by
    intro d hd
    rw [cachedSubsets, hd, cachedSubsets]
  constructor
  · rintro ⟨route, hroute, hportName, rfl⟩
    obtain ⟨d, resolved, hreport, route', hroute', rfl⟩ := (mem_routes_mux hr route).mp hroute
    obtain ⟨n, hn, hhash⟩ := Option.map_eq_some_iff.mp hportName
    obtain ⟨hkey, rfl⟩ := hinj d (mem_channels_of_reconcile hr hreport) c hc n name
      (hashesName_of_route hroute' hn) hname hhash
    exact ⟨⟨d, resolved, hreport, hkey⟩, route', hsubsets d hkey ▸ hroute', hn, rfl⟩
  · rintro ⟨⟨d, resolved, hreport, hkey⟩, route', hroute', hportName, rfl⟩
    refine ⟨route'.hashed cfg c, (mem_routes_mux hr _).mpr
      ⟨d, resolved, hreport, route', ?_, (hashed_congr hkey route').symm⟩, ?_, rfl⟩
    · rw [hsubsets d hkey]
      exact hroute'
    · simp [Route.hashed, hportName]

/-- Under the name of a mux port that belongs to a port of a channel, the mux Endpoints have what
the Endpoints of the channel have under the name of its port, each address with its readiness, and
nothing else; a rejected channel has nothing in them. -/
theorem mux_ports_route_to_their_channels (cfg : Config) (input : PassInput)
    (memoEndpoints : MemoEndpoints) (r : IterationResult)
    (hdistinct : (input.channels.map Channel.key).Nodup)
    (hinj : HashInjectiveOn cfg memoEndpoints input.channels)
    (hr : reconcileChannels cfg input memoEndpoints = .ok r) :
    (∀ m ∈ r.muxPorts, ∀ c ∈ input.channels, ∀ p ∈ c.ports, m.name = c.muxName cfg p →
      endpointsUnder r.endpoints m.name =
        endpointsUnder (cachedSubsets memoEndpoints c) p.portName) ∧
      (∀ c rejection, (c, .rejected rejection) ∈ r.reports → ∀ name,
        HashesName memoEndpoints c name →
          endpointsUnder r.endpoints (c.hashedName cfg name) = ∅) ∧
      ∀ route ∈ routes r.endpoints, ∃ c resolved, (c, .accepted resolved) ∈ r.reports ∧
        ∃ route' ∈ routes (cachedSubsets memoEndpoints c), route = route'.hashed cfg c := by
  obtain ⟨start, final, -, hrun, -, -, hpass⟩ := reconcileChannels_eq_ok hr
  refine ⟨fun m hm c hc p hp hname => ?_, fun c rejection hreject name hhashes => ?_,
    fun route hroute => (mem_routes_mux hr route).mp hroute⟩
  · have hdeclared : HashesName memoEndpoints c p.portName := Or.inl ⟨p, hp, rfl⟩
    have hlength : m.name.toList.length = 7 := hname ▸ length_muxName
    obtain ⟨d, resolved, hreport, q, hq, hmuxName⟩ := accepted_of_mem_muxPorts hpass hm hlength
    obtain ⟨hkey, -⟩ := hinj d (mem_channels_of_reconcile hr hreport) c hc q.portName p.portName
      (Or.inl ⟨q, hq, rfl⟩) hdeclared (hmuxName.symm.trans hname)
    ext e
    rw [hname]
    exact (mem_endpointsUnder_hashedName hr hinj hc hdeclared e).trans
      (and_iff_right ⟨d, resolved, hreport, hkey⟩)
  · -- The keys of the reports are distinct, so that no accepted channel has the key of this one.
    have hnodup : (r.reports.map fun e => e.1.key).Nodup := by
      have hperm := (perm_sortBy channelSortKey input.channels).map Channel.key
      rw [← Function.comp_def, ← List.map_map, Loop.map_fst_run hrun]
      exact hperm.nodup_iff.mpr hdistinct
    ext e
    rw [mem_endpointsUnder_hashedName hr hinj (mem_channels_of_reconcile hr hreject) hhashes]
    simp only [Set.mem_empty_iff_false, iff_false, not_and]
    rintro ⟨d, resolved, hreport, hkey⟩
    have hsame := List.inj_on_of_nodup_map hnodup hreport hreject hkey
    simp at hsame

/-- The channels `api` and `web` ask for one port, and share a pod. -/
def sharedPodInput : PassInput where
  mux := sampleMux [] []
  channels := [sampleChannel "web" "http" 80 [], sampleChannel "api" "http" 80 []]
  configmap := none
  order := sampleOrder

def sharedPodEndpoints : MemoEndpoints :=
  Dict.ofList (["web", "api"].map fun name => (("default", name), ⟨Dict.empty, Dict.empty,
    some [⟨["10.0.0.1"], ["10.0.0.2"], [⟨some "http", 8080, "TCP"⟩]⟩]⟩))

theorem hashesName_sharedPod {c : Channel} (hc : c ∈ sharedPodInput.channels) {name : String}
    (h : HashesName sharedPodEndpoints c name) : name = "http" := by
  have hports : ∀ c ∈ sharedPodInput.channels, (∀ p ∈ c.ports, p.portName = "http") ∧
      ∀ subset ∈ cachedSubsets sharedPodEndpoints c, ∀ port ∈ subset.ports,
        port.name = some "http" := by
    decide +kernel
  rcases h with ⟨p, hp, rfl⟩ | ⟨subset, hsubset, port, hport, hname⟩
  · exact (hports c hc).1 p hp
  · rw [(hports c hc).2 subset hsubset port hport] at hname
    exact (Option.some.inj hname).symm

theorem hashInjectiveOn_sharedPod :
    HashInjectiveOn sampleConfig sharedPodEndpoints sharedPodInput.channels := by
  intro c hc d hd n m hn hm
  have hkeys : ∀ c ∈ sharedPodInput.channels, ∀ d ∈ sharedPodInput.channels,
      c.hashedName sampleConfig "http" = d.hashedName sampleConfig "http" → c.key = d.key := by
    decide +kernel
  rw [hashesName_sharedPod hc hn, hashesName_sharedPod hd hm]
  exact fun h => ⟨hkeys c hc d hd h, rfl⟩

theorem endpointsUnder_sharedPod :
    endpointsUnder (cachedSubsets sharedPodEndpoints (sampleChannel "api" "http" 80 [])) "http" =
      {(⟨"10.0.0.1", 8080, "TCP"⟩, true), (⟨"10.0.0.2", 8080, "TCP"⟩, false)} := by
  have hsubsets : cachedSubsets sharedPodEndpoints (sampleChannel "api" "http" 80 []) =
      [⟨["10.0.0.1"], ["10.0.0.2"], [⟨some "http", 8080, "TCP"⟩]⟩] := by decide +kernel
  ext ⟨⟨ip, port, protocol⟩, ready⟩
  rw [hsubsets]
  constructor
  · rintro ⟨route, ⟨subset, hsubset, hip, hport⟩, -, hendpoint⟩
    obtain rfl := List.mem_singleton.mp hsubset
    obtain ⟨-, hnumber, hprotocol⟩ := EndpointPort.mk.inj (List.mem_singleton.mp hport)
    obtain ⟨hep, rfl⟩ := Prod.mk.inj hendpoint
    obtain ⟨rfl, rfl, rfl⟩ := MuxEp.mk.inj hep
    rw [hnumber, hprotocol]
    cases hready : route.ready with
    | true =>
      rw [hready] at hip
      exact Or.inl (by rw [List.mem_singleton.mp hip])
    | false =>
      rw [hready] at hip
      exact Or.inr (by rw [List.mem_singleton.mp hip]; rfl)
  · rintro (h | h)
    · obtain ⟨hep, rfl⟩ := Prod.mk.inj h
      exact ⟨⟨"10.0.0.1", some "http", 8080, "TCP", true⟩, ⟨_, List.mem_singleton_self _,
        List.mem_singleton_self _, List.mem_singleton_self _⟩, rfl, by rw [hep]; rfl⟩
    · obtain ⟨hep, rfl⟩ := Prod.mk.inj h
      exact ⟨⟨"10.0.0.2", some "http", 8080, "TCP", false⟩, ⟨_, List.mem_singleton_self _,
        List.mem_singleton_self _, List.mem_singleton_self _⟩, rfl, by rw [hep]; rfl⟩

def sharedPodRejection : Rejection :=
  .portConflict [⟨⟨some "http", 80, some "TCP"⟩, 80⟩]
    ["80/TCP is already claimed by default/api:64bbd5a"]

/-- The port 80 leads to the endpoints of `api`, and nothing to those of `web`. -/
theorem mux_ports_route_to_their_channels_sharedPod :
    ∃ r, reconcileChannels sampleConfig sharedPodInput sharedPodEndpoints = .ok r ∧
      ⟨"64bbd5a", 80, "TCP"⟩ ∈ r.muxPorts ∧
      endpointsUnder r.endpoints "64bbd5a" =
        {(⟨"10.0.0.1", 8080, "TCP"⟩, true), (⟨"10.0.0.2", 8080, "TCP"⟩, false)} ∧
      endpointsUnder r.endpoints "07bb300" = ∅ := by
  have houtcome : (reconcileChannels sampleConfig sharedPodInput sharedPodEndpoints).toOption.any
      (fun r => decide (⟨"64bbd5a", 80, "TCP"⟩ ∈ r.muxPorts ∧
        (sampleChannel "web" "http" 80 [], .rejected sharedPodRejection) ∈ r.reports)) = true := by
    decide +kernel
  cases hr : reconcileChannels sampleConfig sharedPodInput sharedPodEndpoints with
  | error e => simp [hr, Except.toOption] at houtcome
  | ok r =>
    rw [hr] at houtcome
    obtain ⟨hport, hrejected⟩ := of_decide_eq_true houtcome
    obtain ⟨hserved, hskipped, -⟩ := mux_ports_route_to_their_channels sampleConfig sharedPodInput
      sharedPodEndpoints r (by decide +kernel) hashInjectiveOn_sharedPod hr
    have hapi := hserved _ hport (sampleChannel "api" "http" 80 []) (by simp [sharedPodInput])
      ⟨some "http", 80, some "TCP"⟩ (by decide +kernel) (by decide +kernel)
    have hweb := hskipped _ _ hrejected "http" (Or.inl ⟨_, List.mem_singleton_self _, rfl⟩)
    have hhashed : (sampleChannel "web" "http" 80 []).hashedName sampleConfig "http" = "07bb300" := by
      decide +kernel
    exact ⟨r, rfl, hport, hapi.trans endpointsUnder_sharedPod, hhashed ▸ hweb⟩

end SvcLbMux
