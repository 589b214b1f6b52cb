import SvcLbMux.IndexOrder
import SvcLbMux.Library.Emission

namespace SvcLbMux

open Py

/-! ## The objects -/

/-- `status.loadBalancer` of a Service. -/
structure LoadBalancer where
  ingress : Option (List Ingress)
deriving DecidableEq

/-- A JSON merge patch of it: a list is replaced, and `null` removes the whole. -/
def LoadBalancer.mergePatch (live : Option LoadBalancer) :
    Option LoadBalancer → Option LoadBalancer
  | none => none
  | some patch => some ⟨patch.ingress.or (live.bind LoadBalancer.ingress)⟩

/-- What the API server holds of a mux and of its channels. -/
structure Cluster where
  mux : MuxService
  channels : List Channel
  channelStatus : Dict (String × String) LoadBalancer
  configmap : Option ConfigMap
  endpoints : Option Endpoints
  admitted : ∀ c ∈ channels, c.Admitted
  distinct : (channels.map Channel.key).Nodup

structure IndexOrder where
  yields : List Channel → List Channel
  perm : ∀ channels, (yields channels).Perm channels

structure Surroundings where
  dryrunMode : Bool
  hasQueue : Bool
  debugState : DebugState
  memoEndpoints : MemoEndpoints
  muxLabels : Dict String String
  statusLb : Option LoadBalancer
  loadBalancerClass : Channel → String
  nodePort : Channel → ServicePort → Option Int
  targetRef : String × String → EndpointSubset → String → Option TargetRef
  index : IndexOrder
  order : SetOrder MuxPort
  endpointOrder : SetOrder MuxEp

/-! ## The requests -/

inductive Request where
  | event (object : String × String) (type : String) (event : Event)
  | patchChannelPorts (channel : String × String) (portsText : String)
  | patchChannelStatus (channel : String × String) (statusLb : Option LoadBalancer)
  | saveConfigmap (store : ConfigMapAllocationStore) (create : Bool) (state : StateDoc)
  | patchMuxAnnotations (patch : Dict String (Option String))
  | patchMuxPorts (muxPorts : List MuxPort)
  | patchEndpoints (desired : DesiredEndpoints)
  | createEndpoints (desired : DesiredEndpoints)

def Request.writes : Request → Bool
  | .event .. => false
  | _ => true

section Iteration

variable (cfg : Config) (s : Surroundings)

/-- `if not DRYRUN_MODE`. -/
def unlessDryrun (requests : List Request) : List Request :=
  if s.dryrunMode then [] else requests

/-- `channel.get("status", {}).get("loadBalancer", {})`. -/
def channelLoadBalancer (cluster : Cluster) (channel : Channel) : LoadBalancer :=
  (cluster.channelStatus.get channel.key).getD ⟨none⟩

def updateChannelServiceMetadata (cluster : Cluster) (channel : Channel)
    (portsText : String) : List Request :=
  unlessDryrun s (
    (if channel.annotations.get cfg.annotationPorts ≠ some portsText then
      [.patchChannelPorts channel.key portsText] else []) ++
    if some (channelLoadBalancer cluster channel) ≠ s.statusLb then
      [.patchChannelStatus channel.key s.statusLb] else [])

def channelTurn (cluster : Cluster) (maxPorts : Option Int) (state : IterationState)
    (channel : Channel) : Emission Request PyError (IterationState × Outcome) := do
  let (loop, outcome) ← Emission.attempt
    (channelStep cfg (cluster.mux.namespace_, cluster.mux.name) maxPorts state.loop channel)
  match outcome with
  | .rejected rejection =>
    Emission.emit [.event channel.key "Error" rejection.event]
    pure (⟨loop, state.endpoints⟩, .rejected rejection)
  | .accepted resolved =>
    Emission.emit (updateChannelServiceMetadata cfg s cluster channel (portsAnnotationOf resolved))
    let chEndpoints ← Emission.attempt (collectChannelEndpoints cfg channel s.memoEndpoints)
    pure (⟨loop, state.endpoints ++ chEndpoints⟩, .accepted resolved)

/-! ## The mux -/

/-- An event on the mux, from the part of the iteration before the loop. -/
def muxEvent (muxKey : String × String) (event : Event) : Request :=
  .event muxKey (if event.reason = "GkePortLimitApplied" then "Warning" else "Error") event

def storeEvents (mux : MuxService) (configmap : Option ConfigMap) : List Event :=
  match (muxStore cfg mux).load configmap with
  | .error e => [⟨"PortAllocationStoreInvalid", e.message⟩]
  | .ok _ => []

/-- The part of an iteration before the loop, with the mux ports that it has found. -/
def iterationStart (input : PassInput) : Emission Request PyError (Finset MuxPort × PassStart) := do
  let muxKey := (input.mux.namespace_, input.mux.name)
  let oldPorts ← Emission.attempt (oldMuxPorts input.mux.ports)
  let limit := muxPortLimit cfg input.mux
  Emission.emit (limit.2.map (muxEvent muxKey))
  let channels := sortChannels input.channels
  let recovered ← Emission.attempt
    ((collectExistingPortOwners cfg channels (input.order.toList oldPorts)).mapError .valueError)
  Emission.emit ((muxPortRanges cfg input.mux).2.map (muxEvent muxKey))
  let built ← Emission.attempt
    ((buildMuxState cfg input.mux channels recovered input.configmap).mapError .valueError)
  Emission.emit ((storeEvents cfg input.mux input.configmap).map (muxEvent muxKey))
  pure (oldPorts,
    { maxPorts := limit.1
      store := built.2.1
      loop := ⟨∅, recovered.update (built.1.portOwners cfg), built.1⟩
      events := limit.2 ++ built.2.2 })

def saveRequests (store : Option ConfigMapAllocationStore) (muxState : MuxState)
    (configmap : Option ConfigMap) : List Request :=
  match store with
  | none => []
  | some store =>
    if muxState.changed || configmap.isNone then
      unlessDryrun s [.saveConfigmap store configmap.isNone muxState.toState]
    else []

def conflictEvents (mux : MuxService) (channels : List Channel) : List Request :=
  (externalDnsAggregationConflicts cfg mux.annotations channels).map fun conflict =>
    .event conflict.1.key "Warning" ⟨"MuxExternalDnsAnnotationConflict",
      "channel annotation " ++ conflict.2.1 ++ " cannot be aggregated because mux " ++
        mux.namespace_ ++ "/" ++ mux.name ++ " already owns " ++ conflict.2.2⟩

def muxAnnotationsRequests (mux : MuxService) (desired : Dict String String) (summary : String) :
    List Request :=
  match muxPatch mux.annotations desired with
  | none => []
  | some patch =>
    unlessDryrun s [.patchMuxAnnotations patch,
      .event (mux.namespace_, mux.name) "Normal"
        ⟨"MuxAnnotationsUpdated", "Mux annotations updated: " ++ summary⟩]

/-- `Added 2 port(s): 80/TCP, 443/TCP`, where there are any. -/
def changePart (verb noun : String) (items : List String) : List String :=
  if items = [] then []
  else [verb ++ " " ++ str items.length ++ " " ++ noun ++ "(s): " ++ String.intercalate ", " items]

def portTexts (ports : Finset MuxPort) : List String :=
  (sortBy MuxPort.port (s.order.toList ports)).map fun p => str p.port ++ "/" ++ p.protocol

def changeMessage (parts : List String) (unchanged : String) : String :=
  if parts ≠ [] then String.intercalate "; " parts else unchanged

def muxPortsRequests (muxKey : String × String) (oldPorts muxPorts : Finset MuxPort) :
    List Request :=
  let written := s.order.toList muxPorts
  if oldPorts ≠ muxPorts then
    unlessDryrun s [.event muxKey "Normal" ⟨"MuxPortsChanged",
        changeMessage (changePart "Added" "port" (portTexts s (muxPorts \ oldPorts)) ++
            changePart "Removed" "port" (portTexts s (oldPorts \ muxPorts)))
          ("Mux ports updated: " ++ str written.length ++ " port(s) total")⟩,
      .patchMuxPorts written]
  else []

def endpointTexts (endpoints : Finset MuxEp) : List String :=
  (sortBy (fun e => toLex (e.ip, e.port)) (s.endpointOrder.toList endpoints)).map fun e =>
    e.ip ++ ":" ++ str e.port ++ "/" ++ e.protocol

/-- `memo.endpoints.get(mux_key, ...)`. -/
def cachedMuxEndpoints (muxKey : String × String) : Endpoints :=
  (s.memoEndpoints.get muxKey).getD ⟨Dict.empty, Dict.empty, some []⟩

/-- The Endpoints are compared with what is cached of them, and looked up to see if they exist. -/
def endpointsRequests (muxKey : String × String) (live : Option Endpoints)
    (desired : DesiredEndpoints) : List Request :=
  let old := cachedMuxEndpoints s muxKey
  match live with
  | some _ =>
    if desired.patches old then
      let current := getCurrentEndpointsSet desired.subsets
      let oldReady := (getOldEndpointsSet old).1
      unlessDryrun s [.event muxKey "Normal" ⟨"MuxEndpointsChanged",
          changeMessage (changePart "Added" "endpoint" (endpointTexts s (current.1 \ oldReady)) ++
              changePart "Removed" "endpoint" (endpointTexts s (oldReady \ current.1)))
            ("Mux endpoints updated: " ++ str current.1.card ++ " ready, " ++
              str current.2.card ++ " not ready")⟩,
        .patchEndpoints desired]
    else []
  | none =>
    unlessDryrun s [.event muxKey "Normal" ⟨"MuxEndpointsCreated",
        "Mux endpoints created: " ++
          str ((desired.subsets.map fun subset => subset.addresses.length).sum) ++ " ready, " ++
          str ((desired.subsets.map fun subset => subset.notReadyAddresses.length).sum) ++
          " not ready"⟩,
      .createEndpoints desired]

/-! ## The iteration -/

def Cluster.passInput (cluster : Cluster) : PassInput where
  mux := cluster.mux
  channels := s.index.yields cluster.channels
  configmap := cluster.configmap
  order := s.order

def Surroundings.display : Display where
  ingress := ((s.statusLb.bind LoadBalancer.ingress).getD []).map fun i => (i.hostname, i.ip)
  nodePort := s.nodePort

def Surroundings.debugSources (cluster : Cluster) : DebugSources where
  hasQueue := s.hasQueue
  muxIngress := (s.statusLb.bind LoadBalancer.ingress).getD []
  loadBalancerClass := s.loadBalancerClass
  channelIngress := fun channel => (channelLoadBalancer cluster channel).ingress.getD []
  nodePort := s.nodePort
  targetRef := s.targetRef

def finishIteration (cluster : Cluster) (oldPorts : Finset MuxPort) (start : PassStart)
    (final : IterationState) (reports : List (Channel × Outcome)) :
    Emission Request PyError PassOutputs := do
  let input := cluster.passInput s
  let muxKey := (input.mux.namespace_, input.mux.name)
  Emission.emit (saveRequests s start.store final.loop.muxState input.configmap)
  let topology ← Emission.attempt ((topologyMappings cfg input.channels).mapError .valueError)
  let texts ← Emission.attempt ((generatedTexts cfg s.display s.memoEndpoints input.channels
    final.loop.ports.card).mapError .valueError)
  Emission.emit (conflictEvents cfg input.mux input.channels)
  let desired := desiredMuxAnnotations cfg input.mux.annotations
    (aggregateExternalDnsAnnotations cfg (sortChannels input.channels)) texts
  Emission.emit (muxAnnotationsRequests s input.mux desired texts.summary)
  Emission.emit (muxPortsRequests s muxKey oldPorts (buildMuxPorts final.loop.ports))
  Emission.emit (endpointsRequests s muxKey cluster.endpoints
    (.ofPass cfg s.muxLabels muxKey input.channels final.endpoints))
  pure ⟨{ final := final.loop
          reports := reports
          muxPorts := buildMuxPorts final.loop.ports
          configmap := savedConfigmap start.store final.loop.muxState input.configmap
          muxEvents := start.events
          endpoints := final.endpoints
          topology := topology }, desired⟩

/-- The body of the `while` loop of `mux_daemon`. -/
def iteration (cluster : Cluster) : Emission Request PyError PassOutputs := do
  let input := cluster.passInput s
  Emission.attempt ((updateMuxState cfg s.memoEndpoints (s.debugSources cluster)
    (input.mux.namespace_, input.mux.name) input.mux input.channels s.debugState).1.mapError
      .valueError)
  let start ← iterationStart cfg input
  let ended ← Emission.loop (channelTurn cfg s cluster start.2.maxPorts)
    (sortChannels input.channels) ⟨start.2.loop, []⟩
  finishIteration cfg s cluster start.1 start.2 ended.1 ended.2

end Iteration

/-! ## The iteration and its outputs -/

section Outcome

variable (cfg : Config) (s : Surroundings)

theorem outcome_channelTurn (cluster : Cluster) (maxPorts : Option Int) (state : IterationState)
    (channel : Channel) :
    (channelTurn cfg s cluster maxPorts state channel).outcome =
      iterationStep cfg s.memoEndpoints (cluster.mux.namespace_, cluster.mux.name) maxPorts state
        channel := by
  rw [channelTurn, iterationStep, Emission.outcome_bind, Emission.outcome_attempt]
  cases hstep : channelStep cfg (cluster.mux.namespace_, cluster.mux.name) maxPorts state.loop
      channel with
  | error e => rfl
  | ok turn =>
    obtain ⟨loop, outcome⟩ := turn
    cases outcome with
    | rejected rejection => rfl
    | accepted resolved =>
      dsimp only
      rw [Emission.outcome_bind, Emission.outcome_emit]
      dsimp only
      rw [Emission.outcome_bind, Emission.outcome_attempt]
      cases collectChannelEndpoints cfg channel s.memoEndpoints <;> rfl

theorem outcome_iterationStart (input : PassInput) :
    (iterationStart cfg input).outcome =
      match oldMuxPorts input.mux.ports with
      | .error e => .error e
      | .ok oldPorts => (passStart cfg input).map fun start => (oldPorts, start) := by
  unfold iterationStart passStart
  simp only [Emission.outcome_bind, Emission.outcome_attempt, Emission.outcome_emit]
  cases oldMuxPorts input.mux.ports with
  | error e => rfl
  | ok oldPorts =>
    dsimp only
    cases collectExistingPortOwners cfg (sortChannels input.channels)
        (input.order.toList oldPorts) with
    | error e => rfl
    | ok recovered =>
      simp only [Except.mapError]
      cases buildMuxState cfg input.mux (sortChannels input.channels) recovered
          input.configmap with
      | error e => rfl
      | ok built => rfl

theorem outcome_finishIteration (cluster : Cluster) (oldPorts : Finset MuxPort)
    (start : PassStart) (final : IterationState) (reports : List (Channel × Outcome)) :
    (finishIteration cfg s cluster oldPorts start final reports).outcome =
      match topologyMappings cfg (cluster.passInput s).channels with
      | .error e => .error (.valueError e)
      | .ok topology =>
        match generatedTexts cfg s.display s.memoEndpoints (cluster.passInput s).channels
            final.loop.ports.card with
        | .error e => .error (.valueError e)
        | .ok texts => .ok
          ⟨{ final := final.loop
             reports := reports
             muxPorts := buildMuxPorts final.loop.ports
             configmap := savedConfigmap start.store final.loop.muxState cluster.configmap
             muxEvents := start.events
             endpoints := final.endpoints
             topology := topology },
            desiredMuxAnnotations cfg cluster.mux.annotations
              (aggregateExternalDnsAnnotations cfg (sortChannels (cluster.passInput s).channels))
              texts⟩ := by
  unfold finishIteration
  simp only [Emission.outcome_bind, Emission.outcome_attempt, Emission.outcome_emit]
  cases topologyMappings cfg (cluster.passInput s).channels with
  | error e => rfl
  | ok topology =>
    simp only [Except.mapError]
    cases generatedTexts cfg s.display s.memoEndpoints (cluster.passInput s).channels
        final.loop.ports.card <;> rfl

theorem outcome_iteration (cluster : Cluster) :
    (iteration cfg s cluster).outcome =
      passOutputs cfg s.display s.memoEndpoints (s.debugSources cluster) s.debugState
        (cluster.passInput s) := by
  unfold iteration passOutputs daemonIteration reconcileChannels
  simp only [Emission.outcome_bind, Emission.outcome_attempt, Emission.outcome_loop,
    outcome_channelTurn, outcome_iterationStart, outcome_finishIteration]
  rw [show (cluster.passInput s).mux = cluster.mux from rfl]
  generalize updateMuxState cfg s.memoEndpoints (s.debugSources cluster)
    (cluster.mux.namespace_, cluster.mux.name) cluster.mux (cluster.passInput s).channels
    s.debugState = updated
  obtain ⟨result, st⟩ := updated
  cases result with
  | error e => rfl
  | ok done =>
    simp only [Except.mapError]
    cases hports : oldMuxPorts cluster.mux.ports with
    | error e =>
      have hstart : passStart cfg (cluster.passInput s) = .error e := by
        rw [passStart, show (cluster.passInput s).mux = cluster.mux from rfl, hports]
      simp only [hstart]
    | ok oldPorts =>
      cases passStart cfg (cluster.passInput s) with
      | error e => rfl
      | ok start =>
        simp only [Except.map]
        cases Loop.run (iterationStep cfg s.memoEndpoints
            (cluster.mux.namespace_, cluster.mux.name) start.maxPorts)
            (sortChannels (cluster.passInput s).channels) ⟨start.loop, []⟩ with
        | error e => rfl
        | ok ended =>
          dsimp only
          cases topologyMappings cfg (cluster.passInput s).channels with
          | error e => rfl
          | ok topology =>
            dsimp only
            cases generatedTexts cfg s.display s.memoEndpoints (cluster.passInput s).channels
                ended.1.loop.ports.card <;> rfl

end Outcome

/-! ## A sample cluster -/

def muxEpSortKey (e : MuxEp) : String ×ₗ Int ×ₗ String := toLex (e.ip, toLex (e.port, e.protocol))

theorem muxEpSortKey_injective : Function.Injective muxEpSortKey := by
  rintro ⟨ip, port, protocol⟩ ⟨ip', port', protocol'⟩ h
  simp only [muxEpSortKey, EmbeddingLike.apply_eq_iff_eq, Prod.mk.injEq] at h
  obtain ⟨rfl, rfl, rfl⟩ := h
  rfl

/-- The port of the channel `web` is allocated, `api` has a port of its own. -/
def sampleCluster : Cluster where
  mux := sampleMux [("svc-mux.nowake.ai/port-range", "9000-9001")] [("placeholder", 101)]
  channels := [sampleChannel "web" "http" 81 [("svc-mux.nowake.ai/external-ports", "http:auto")],
    sampleChannel "api" "http" 80 []]
  channelStatus := Dict.empty
  configmap := none
  endpoints := none
  admitted := by decide +kernel
  distinct := by decide +kernel

def sampleSurroundings (memoEndpoints : MemoEndpoints) : Surroundings where
  dryrunMode := false
  hasQueue := true
  debugState := DebugState.empty
  memoEndpoints := memoEndpoints
  muxLabels := Dict.ofList [("app", "mux")]
  statusLb := some ⟨some [⟨none, some "192.0.2.1", none, []⟩]⟩
  loadBalancerClass := fun _ => "svc-mux.nowake.ai/mux.default"
  nodePort := fun _ _ => none
  targetRef := fun _ _ _ => none
  index := ⟨id, List.Perm.refl⟩
  order := sampleOrder
  endpointOrder := ⟨sortSet muxEpSortKey muxEpSortKey_injective, mem_sortSet _ _⟩

end SvcLbMux
