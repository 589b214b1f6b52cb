import SvcLbMux.EndpointsCache

namespace SvcLbMux

open Py

/-! ## The reading of a `ports` annotation -/

/-- `int(text)`, as a statement that may raise. -/
def parseInt (text : String) : Except ValueError Int :=
  match int text with
  | none => .error ⟨intError text⟩
  | some n => .ok n

/-- The text of the mux port in what follows the colon of an item. -/
def muxPortText (portSpec : String) : String :=
  match cut portSpec "->" with
  | some (_, muxPort) => muxPort
  | none => portSpec

/-- Unlike `parsePortMapping` this reads items without an arrow, and the number itself. -/
def parseMuxPortItem (muxPortMap : Dict String Int) (mapping : String) :
    Except ValueError (Dict String Int) :=
  let mapping := strip mapping
  match cut mapping ":" with
  | none => .ok muxPortMap
  | some (portName, portSpec) =>
    (parseInt (strip (muxPortText portSpec))).map fun muxPort =>
      muxPortMap.set (strip portName) muxPort

def DebugState.parseMuxPortAnnotation (muxPortsText : String) :
    Except ValueError (Dict String Int) :=
  if muxPortsText = "" then .ok Dict.empty
  else (split muxPortsText ',').foldlM parseMuxPortItem Dict.empty

/-! ## The state -/

structure DebugMux where
  hasQueue : Bool
  externalDnsHostname : Option String
  statusIngress : Option String
deriving DecidableEq

structure DebugEndpoints where
  readyCount : ℕ
  notReadyCount : ℕ
  pods : List String
deriving DecidableEq

structure DebugPort where
  name : Option String
  port : Int
  nodePort : Option Int
  protocol : Option String
  muxPort : Option Int
deriving DecidableEq

structure DebugChannel where
  mux : String × String
  lbClass : String
  externalDns : Option String
  customDns : Option String
  ports : List DebugPort
deriving DecidableEq

/-- `_state` of the store, without its events. -/
structure DebugState where
  muxServices : Dict (String × String) DebugMux
  channelServices : Dict (String × String) DebugChannel
  endpoints : Dict (String × String) DebugEndpoints

def DebugState.empty : DebugState := ⟨Dict.empty, Dict.empty, Dict.empty⟩

structure TargetRef where
  kind : Option String
  name : Option String
  namespace_ : Option String

/-- What an update reads besides the mux, its channels and the cached Endpoints: `memo.mux_queues`,
and the parts of these objects that nothing else reads. -/
structure DebugSources where
  hasQueue : Bool
  muxIngress : List Ingress
  loadBalancerClass : Channel → String
  channelIngress : Channel → List Ingress
  nodePort : Channel → ServicePort → Option Int
  targetRef : String × String → EndpointSubset → String → Option TargetRef

section Update

variable (cfg : Config) (memoEndpoints : MemoEndpoints) (sources : DebugSources)
  (muxKey : String × String)

/-- `ingress[0].get("ip") or ingress[0].get("hostname")`, if there is an ingress. -/
def statusIngress (ingress : List Ingress) : Option String :=
  ingress.head?.bind fun first => orText first.ip first.hostname

def debugMux (mux : MuxService) : DebugMux where
  hasQueue := sources.hasQueue
  externalDnsHostname := mux.annotations.get externalDnsHostnameAnnotation
  statusIngress := statusIngress sources.muxIngress

def updateMuxService (mux : MuxService) (st : DebugState) : DebugState :=
  { st with muxServices := st.muxServices.set muxKey (debugMux sources mux) }

/-- An address is shown by its pod, if it has one. -/
def podText (key : String × String) (subset : EndpointSubset) (ip : String) : String :=
  match sources.targetRef key subset ip with
  | none => ip
  | some targetRef =>
    if targetRef.kind = some "Pod" then
      targetRef.namespace_.getD key.1 ++ "/" ++ targetRef.name.getD ip
    else ip

def updateEndpointState (key : String × String) (st : DebugState) : DebugState :=
  match memoEndpoints.get key with
  | none => st
  | some value =>
    let subsets := value.subsets.getD []
    let state : DebugEndpoints :=
      ⟨(subsets.map fun subset => subset.addresses.length).sum,
        (subsets.map fun subset => subset.notReadyAddresses.length).sum,
        subsets.flatMap fun subset => subset.addresses.map (podText sources key subset)⟩
    { st with endpoints := st.endpoints.set key state }

/-- `_channel_state`. -/
def debugChannel (mux : DebugMux) (channel : Channel) : Except ValueError DebugChannel :=
  (DebugState.parseMuxPortAnnotation (channel.annotation cfg.annotationPorts)).map fun muxPortMap =>
    let customDns := channel.annotations.get cfg.annotationExternalDnsHostname
    { mux := muxKey
      lbClass := sources.loadBalancerClass channel
      externalDns := orText customDns (orText mux.externalDnsHostname
        (orText (statusIngress (sources.channelIngress channel)) mux.statusIngress))
      customDns := customDns
      ports := channel.ports.map fun port =>
        ⟨port.name, port.port, sources.nodePort channel port, port.protocol,
          port.name.bind muxPortMap.get⟩ }

/-- The loop over the channels of a mux. What it wrote before it raised stays. -/
def updateChannelStates (mux : DebugMux) :
    List Channel → DebugState → Except ValueError Unit × DebugState
  | [], st => (.ok (), st)
  | channel :: channels, st =>
    let st := updateEndpointState memoEndpoints sources channel.key st
    match debugChannel cfg sources muxKey mux channel with
    | .error e => (.error e, st)
    | .ok state =>
      updateChannelStates mux channels
        { st with channelServices := st.channelServices.set channel.key state }

/-- The channels of the mux that it no longer has. -/
def departedChannels (channels : List Channel) (st : DebugState) : List (String × String) :=
  (st.channelServices.entries.filter fun e =>
    e.2.mux = muxKey && e.1 ∉ channels.map Channel.key).map Prod.fst

def removeChannels (keys : List (String × String)) (st : DebugState) : DebugState :=
  { st with
    channelServices := st.channelServices.filterKeys fun key => key ∉ keys
    endpoints := st.endpoints.filterKeys fun key => key ∉ keys }

def updateMuxChannels (mux : DebugMux) (channels : List Channel) (st : DebugState) :
    Except ValueError Unit × DebugState :=
  match updateChannelStates cfg memoEndpoints sources muxKey mux channels st with
  | (.error e, st) => (.error e, st)
  | (.ok (), st) => (.ok (), removeChannels (departedChannels muxKey channels st) st)

/-- `update_mux_state`. -/
def updateMuxState (mux : MuxService) (channels : List Channel) (st : DebugState) :
    Except ValueError Unit × DebugState :=
  -- The channels find the mux as the first of these has written it.
  updateMuxChannels cfg memoEndpoints sources muxKey (debugMux sources mux) channels
    (updateEndpointState memoEndpoints sources muxKey (updateMuxService sources muxKey mux st))

end Update

/-! ## When the update raises -/

/-- The numbers in the `ports` annotation of a channel can be read. -/
def DebugReadable (cfg : Config) (channel : Channel) : Prop :=
  ∃ muxPortMap,
    DebugState.parseMuxPortAnnotation (channel.annotation cfg.annotationPorts) = .ok muxPortMap

instance (cfg : Config) (channel : Channel) : Decidable (DebugReadable cfg channel) :=
  match h : DebugState.parseMuxPortAnnotation (channel.annotation cfg.annotationPorts) with
  | .ok muxPortMap => isTrue ⟨muxPortMap, h⟩
  | .error _ => isFalse fun ⟨_, hmap⟩ => by
    rw [h] at hmap
    cases hmap

variable {cfg : Config} {memoEndpoints : MemoEndpoints} {sources : DebugSources}
  {muxKey : String × String}

theorem debugChannel_ok_iff (sources : DebugSources) (muxKey : String × String) (mux : DebugMux)
    {channel : Channel} : (∃ state, debugChannel cfg sources muxKey mux channel = .ok state) ↔
      DebugReadable cfg channel := by
  unfold debugChannel DebugReadable
  cases DebugState.parseMuxPortAnnotation (channel.annotation cfg.annotationPorts) with
  | error e => simp [Except.map]
  | ok muxPortMap => simp [Except.map]

theorem updateChannelStates_ok_iff {mux : DebugMux} {channels : List Channel} {st : DebugState} :
    (updateChannelStates cfg memoEndpoints sources muxKey mux channels st).1 = .ok () ↔
      ∀ c ∈ channels, DebugReadable cfg c := by
  induction channels generalizing st with
  | nil => simp [updateChannelStates]
  | cons c channels ih =>
    rw [updateChannelStates, List.forall_mem_cons, ← debugChannel_ok_iff sources muxKey mux]
    cases debugChannel cfg sources muxKey mux c with
    | error e => simp
    | ok state => simp [ih]

/-- The update ends if and only if every channel of the mux is readable. -/
theorem updateMuxState_ok_iff {mux : MuxService} {channels : List Channel} {st : DebugState} :
    (updateMuxState cfg memoEndpoints sources muxKey mux channels st).1 = .ok () ↔
      ∀ c ∈ channels, DebugReadable cfg c := by
  rw [← @updateChannelStates_ok_iff cfg memoEndpoints sources muxKey (debugMux sources mux) channels
    (updateEndpointState memoEndpoints sources muxKey (updateMuxService sources muxKey mux st))]
  unfold updateMuxState updateMuxChannels
  split
  · rename_i e st' h
    simp [h]
  · rename_i st' h
    simp [h]

def sampleSources : DebugSources where
  hasQueue := true
  muxIngress := [⟨none, some "192.0.2.1", none, []⟩]
  loadBalancerClass := fun _ => "svc-mux.nowake.ai/mux.default"
  channelIngress := fun _ => []
  nodePort := fun _ _ => none
  targetRef := fun _ _ _ => some ⟨some "Pod", some "api-0", none⟩

end SvcLbMux
