import SvcLbMux.ChannelClaims
import SvcLbMux.Limits
import SvcLbMux.Owners

namespace SvcLbMux

open Py

variable (cfg : Config)

/-! ## The loop over the channels -/

inductive Rejection where
  | portLimit (message : String)
  | invalidPortMapping (error : ValueError)
  | portConflict (resolved : List ResolvedPort) (conflicts : List String)
deriving DecidableEq

def Rejection.event : Rejection → Event
  | .portLimit message => ⟨"MuxPortLimitExceeded", message⟩
  | .invalidPortMapping error => ⟨"InvalidPortMapping", error.message⟩
  | .portConflict _ conflicts => ⟨"MuxPortConflict", String.intercalate "; " conflicts⟩

inductive Outcome where
  | accepted (resolved : List ResolvedPort)
  | rejected (rejection : Rejection)
deriving DecidableEq

structure LoopState where
  ports : Finset MuxPort
  portOwners : Dict PortKey String
  muxState : MuxState

/-- `process_channel_ports` with the claims of the mux as the allocator. -/
def processChannelPorts (channel : Channel) (muxState : MuxState) :
    Except ValueError (List ResolvedPort) × MuxState :=
  resolveChannelPorts cfg (MuxState.allocate cfg) channel muxState

def channelStep (muxKey : String × String) (maxPorts : Option Int) (s : LoopState)
    (channel : Channel) : Except PyError (LoopState × Outcome) :=
  if wouldExceedMuxPortLimit s.ports channel maxPorts then
    .ok (s, .rejected (.portLimit ("mux " ++ muxKey.1 ++ "/" ++ muxKey.2 ++ " is limited to " ++
      str (maxPorts.getD 0) ++ " port(s); skipping channel would exceed the GKE Service " ++
      "LoadBalancer port limit")))
  else
    let processed := processChannelPorts cfg channel s.muxState
    match processed.1 with
    | .error e => .ok (⟨s.ports, s.portOwners, processed.2⟩, .rejected (.invalidPortMapping e))
    | .ok resolved =>
      let chPorts := muxPortsOf cfg channel resolved
      let checked := findMuxPortConflicts s.portOwners channel chPorts
      if checked.1 ≠ [] then
        .ok (⟨s.ports, checked.2, processed.2⟩, .rejected (.portConflict resolved checked.1))
      else match processed.2.recordChannelClaims cfg channel (portsAnnotationOf resolved) with
        | .error e => .error (.valueError e)
        | .ok muxState => .ok (⟨s.ports ∪ chPorts, checked.2, muxState⟩, .accepted resolved)

/-! ## What a pass reads -/

/-- `set(MuxPort(p["name"], p["port"], p["protocol"]) for p in mux.spec.ports)`. -/
def oldMuxPorts : List ServicePort → Except PyError (Finset MuxPort)
  | [] => .ok ∅
  | p :: ports =>
    match p.name with
    | none => .error (.keyError "name")
    | some name =>
      match p.protocol with
      | none => .error (.keyError "protocol")
      | some protocol => (oldMuxPorts ports).map fun rest => insert ⟨name, p.port, protocol⟩ rest

def channelSortKey (c : Channel) : String ×ₗ String := toLex c.key

def sortChannels (channels : List Channel) : List Channel := sortBy channelSortKey channels

structure SetOrder (α : Type*) where
  toList : Finset α → List α
  mem_toList : ∀ s a, a ∈ toList s ↔ a ∈ s

def defaultAllocationConfigmapName (muxName : String) : String :=
  let name := muxName ++ "-port-allocations"
  if name.toList.length ≤ 63 then name
  else String.ofList (muxName.toList.take 54) ++ "-" ++
    String.ofList ((cfg.hexdigest muxName).take 8)

def allocationConfigmapName (mux : MuxService) : String :=
  let configured := (mux.annotations.get cfg.annotationAllocationConfigmap).getD ""
  if configured ≠ "" then configured else defaultAllocationConfigmapName cfg mux.name

def requestedPortRange (mux : MuxService) : Except ValueError (List (Int × Int)) :=
  parsePortRanges cfg ((mux.annotations.get cfg.annotationPortRange).getD "")

/-- The ranges that a pass works with, and the event when they are invalid. -/
def muxPortRanges (mux : MuxService) : List (Int × Int) × List Event :=
  match requestedPortRange cfg mux with
  | .error e => ([], [⟨"InvalidPortRange", e.message⟩])
  | .ok ranges => (ranges, [])

def muxStore (mux : MuxService) : ConfigMapAllocationStore where
  namespace_ := mux.namespace_
  name := allocationConfigmapName cfg mux
  muxKey := (mux.namespace_, mux.name)

/-- `build_mux_state`. The store is given back only when its state could be loaded. -/
def buildMuxState (mux : MuxService) (channels : List Channel)
    (reservedPortOwners : Dict PortKey String) (configmap : Option ConfigMap) :
    Except ValueError (MuxState × Option ConfigMapAllocationStore × List Event) :=
  let muxKey := (mux.namespace_, mux.name)
  let (ranges, rangeEvents) := muxPortRanges cfg mux
  (collectStaticPortClaims cfg channels).map fun reservedPorts =>
    match (muxStore cfg mux).load configmap with
    | .error e =>
      -- Stateless: static ports are served all the same, `auto` ports fail channel by channel.
      (MuxState.init muxKey [] none channels reservedPorts reservedPortOwners, none,
        rangeEvents ++ [⟨"PortAllocationStoreInvalid", e.message⟩])
    | .ok state =>
      (MuxState.init muxKey ranges state channels reservedPorts reservedPortOwners,
        some (muxStore cfg mux), rangeEvents)

/-! ## What a pass writes -/

def placeholderMuxPort : MuxPort := ⟨"placeholder", 101, "TCP"⟩

/-- The ports that the mux Service gets, as a set. -/
def buildMuxPorts (ports : Finset MuxPort) : Finset MuxPort :=
  if ports = ∅ then {placeholderMuxPort} else ports.filter fun p => p.name ≠ "placeholder"

def savedConfigmap (store : Option ConfigMapAllocationStore) (muxState : MuxState)
    (configmap : Option ConfigMap) : Option ConfigMap :=
  match store with
  | none => configmap
  | some store =>
    if muxState.changed || configmap.isNone then some (store.save muxState.toState) else configmap

/-- A channel after its `ports` annotation was patched. -/
def Channel.patchPorts (channel : Channel) (text : String) : Channel :=
  { channel with annotations := channel.annotations.set cfg.annotationPorts text }

/-- A channel after its part of the pass: only an accepted channel is patched. -/
def channelAfter (report : Channel × Outcome) : Channel :=
  match report.2 with
  | .accepted resolved =>
    if report.1.annotations.get cfg.annotationPorts ≠ some (portsAnnotationOf resolved) then
      report.1.patchPorts cfg (portsAnnotationOf resolved)
    else report.1
  | .rejected _ => report.1

/-! ## The pass -/

structure PassInput where
  mux : MuxService
  channels : List Channel
  configmap : Option ConfigMap
  order : SetOrder MuxPort

/-- What is known when the loop over the channels starts. -/
structure PassStart where
  maxPorts : Option Int
  store : Option ConfigMapAllocationStore
  loop : LoopState
  events : List Event

structure PassResult where
  final : LoopState
  reports : List (Channel × Outcome)
  muxPorts : Finset MuxPort
  configmap : Option ConfigMap
  muxEvents : List Event

def passStart (input : PassInput) : Except PyError PassStart :=
  match oldMuxPorts input.mux.ports with
  | .error e => .error e
  | .ok oldPorts =>
    let limit := muxPortLimit cfg input.mux
    let channels := sortChannels input.channels
    match collectExistingPortOwners cfg channels (input.order.toList oldPorts) with
    | .error e => .error (.valueError e)
    | .ok recovered =>
      match buildMuxState cfg input.mux channels recovered input.configmap with
      | .error e => .error (.valueError e)
      | .ok (muxState, store, events) =>
        .ok { maxPorts := limit.1
              store := store
              loop := ⟨∅, recovered.update (muxState.portOwners cfg), muxState⟩
              events := limit.2 ++ events }

def muxPass (input : PassInput) : Except PyError PassResult :=
  match passStart cfg input with
  | .error e => .error e
  | .ok start =>
    match Loop.run (channelStep cfg (input.mux.namespace_, input.mux.name) start.maxPorts)
        (sortChannels input.channels) start.loop with
    | .error e => .error e
    | .ok (final, reports) =>
      .ok { final := final
            reports := reports
            muxPorts := buildMuxPorts final.ports
            configmap := savedConfigmap start.store final.muxState input.configmap
            muxEvents := start.events }

/-- The loop of a pass reaches a state with the reports so far; a pass may raise later on. -/
def PassReaches (input : PassInput) (s : LoopState) (reports : List (Channel × Outcome)) : Prop :=
  ∃ start before after, passStart cfg input = .ok start ∧
    sortChannels input.channels = before ++ after ∧
    Loop.run (channelStep cfg (input.mux.namespace_, input.mux.name) start.maxPorts) before
      start.loop = .ok (s, reports)

/-- The loop of a pass meets a channel in a state. -/
def PassMeets (input : PassInput) (c : Channel) (s : LoopState) : Prop :=
  ∃ start, passStart cfg input = .ok start ∧
    Loop.Turn (channelStep cfg (input.mux.namespace_, input.mux.name) start.maxPorts)
      (sortChannels input.channels) start.loop c s

variable {cfg}

theorem muxPass_eq_ok {input : PassInput} {r : PassResult} (h : muxPass cfg input = .ok r) :
    ∃ start, passStart cfg input = .ok start ∧
      Loop.run (channelStep cfg (input.mux.namespace_, input.mux.name) start.maxPorts)
        (sortChannels input.channels) start.loop = .ok (r.final, r.reports) ∧
      r.muxPorts = buildMuxPorts r.final.ports ∧
      r.configmap = savedConfigmap start.store r.final.muxState input.configmap := by
  unfold muxPass at h
  split at h
  · cases h
  · rename_i start hstart
    split at h
    · cases h
    · rename_i final reports hrun
      obtain rfl := Except.ok.inj h
      exact ⟨start, hstart, hrun, rfl, rfl⟩

theorem muxPass_from_start {input : PassInput} {r : PassResult} (h : muxPass cfg input = .ok r)
    {start : PassStart} (hstart : passStart cfg input = .ok start) :
    Loop.run (channelStep cfg (input.mux.namespace_, input.mux.name) start.maxPorts)
        (sortChannels input.channels) start.loop = .ok (r.final, r.reports) ∧
      r.configmap = savedConfigmap start.store r.final.muxState input.configmap := by
  obtain ⟨start', hstart', hrun, -, hconfigmap⟩ := muxPass_eq_ok h
  obtain rfl : start = start' := Except.ok.inj (hstart.symm.trans hstart')
  exact ⟨hrun, hconfigmap⟩

theorem turn_of_meets {input : PassInput} {start : PassStart} {c : Channel} {s : LoopState}
    (hstart : passStart cfg input = .ok start) (hmeets : PassMeets cfg input c s) :
    Loop.Turn (channelStep cfg (input.mux.namespace_, input.mux.name) start.maxPorts)
      (sortChannels input.channels) start.loop c s := by
  obtain ⟨start', hstart', hturn⟩ := hmeets
  obtain rfl : start = start' := Except.ok.inj (hstart.symm.trans hstart')
  exact hturn

theorem passReaches_of_muxPass {input : PassInput} {r : PassResult}
    (h : muxPass cfg input = .ok r) : PassReaches cfg input r.final r.reports := by
  obtain ⟨start, hstart, hrun, -⟩ := muxPass_eq_ok h
  exact ⟨start, sortChannels input.channels, [], hstart, by simp, hrun⟩

/-! ## A small cluster

Inputs on which the results of the later modules are instantiated. The digests are those of
SHA-256.
-/

def sampleConfig : Config where
  apiPrefix := "svc-mux.nowake.ai"
  defaultMuxNamespace := "default"
  sha256 := fun text =>
    match text with
    | "default/web/http" => 0x7bb300412af3990a970cccd0ea42d2350b06b6b29ec497023b5b962daba3126
    | "default/web/web" => 0x44ee5023278b38c87e9566098b909bcec0a6063b1be46a87b709e1b5fe22bd14
    | "default/api/http" => 0x64bbd5a8058854cf26fdbd88c4eb105bdff689c13442e07bd886e2cce88cb76f
    | "default/a/http" => 0x320356dfa1ac645c836b139df9c440f73eb6ed74c3e7299e7eceef1d0e0bf06a
    | "default/b/http" => 0xeb76c01a9c897112eaea60cac891ce848670777bf276fc21f2e1abbb56ac0f1e
    | _ => 0

def sampleChannel (name portName : String) (port : Int) (annotations : List (String × String)) :
    Channel :=
  ⟨"default", name, Dict.ofList annotations, [⟨some portName, port, some "TCP"⟩]⟩

def sampleMux (annotations : List (String × String)) (ports : List (String × Int)) : MuxService where
  namespace_ := "default"
  name := "mux"
  annotations := Dict.ofList annotations
  loadBalancerClass := none
  ports := ports.map fun p => ⟨some p.1, p.2, some "TCP"⟩

def sampleOrder : SetOrder MuxPort :=
  ⟨sortSet muxPortSortKey muxPortSortKey_injective, mem_sortSet _ _⟩

/-- A claim for the port `http` of a sample channel. -/
def sampleClaim (service : String) (channelPort muxPort : Int) (mode : String) : Claim :=
  Claim.ofRef ⟨"default", service, "http", "TCP"⟩ channelPort muxPort mode

def sampleConfigmap (claims : List Claim) : ConfigMap where
  muxAnnotation := some "default/mux"
  data := .document (some
    { mux := some (some "default", some "mux")
      portClaims := some claims
      allocations := some [] })

end SvcLbMux
