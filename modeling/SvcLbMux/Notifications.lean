import SvcLbMux.EndpointsCache
import SvcLbMux.Refs
import SvcLbMux.Library.Mailbox

namespace SvcLbMux

open Py Mailbox

/-! ## The index of channels -/

structure ServiceBody extends Service where
  ports : List ServicePort

inductive ServiceEvent where
  | applied (body : ServiceBody)
  | deleted (key : String × String)

def ServiceEvent.key : ServiceEvent → String × String
  | .applied body => body.key
  | .deleted key => key

structure ChannelIndexes where
  channelServices : Dict (String × String) ServiceBody
  muxChannels : Dict (String × String) ((String × String) × ServiceBody)

section Handlers

variable (cfg : Config)

def muxOf (body : ServiceBody) : Except ValueError (String × String) :=
  getMuxFromLbClass cfg (body.loadBalancerClass.getD "")

/-- What the index function `mux_channels` returns: nothing for a class that it cannot read. -/
def muxChannelsEntry (body : ServiceBody) : Option ((String × String) × ServiceBody) :=
  if isChannelService cfg body.toService then
    (muxOf cfg body).toOption.map fun mux => (mux, body)
  else none

/-- kopf drops what an index does not select. -/
def ChannelIndexes.observe (indexes : ChannelIndexes) : ServiceEvent → ChannelIndexes
  | .applied body =>
    ⟨if isChannelService cfg body.toService then indexes.channelServices.set body.key body
      else indexes.channelServices.erase body.key,
      match muxChannelsEntry cfg body with
      | some entry => indexes.muxChannels.set body.key entry
      | none => indexes.muxChannels.erase body.key⟩
  | .deleted key => ⟨indexes.channelServices.erase key, indexes.muxChannels.erase key⟩

/-- `mux_channels.get(mux_key, set())`. -/
def ChannelIndexes.channelsOf (indexes : ChannelIndexes) (muxKey : String × String) :
    List ServiceBody :=
  (indexes.muxChannels.entries.filter fun entry => entry.2.1 = muxKey).map fun entry => entry.2.2

/-- The index function of the muxes makes sure that a mux has a queue. -/
def isIndexedMux (body : ServiceBody) : Bool :=
  hasMultiplexerAnnotation cfg body.toService && (multiplexerServices body.toService).isOk

structure HandlerEvent extends Event where
  fieldPath : Option String

def unnamedPort (ports : List ServicePort) : Option ℕ :=
  ports.findIdx? fun p => p.name.getD "" = ""

/-- `handle_channel_service`: the mux that it triggers, or the event that it emits. -/
def handleChannelService (body : ServiceBody) : Except HandlerEvent (String × String) :=
  match unnamedPort body.ports with
  | some n => .error ⟨⟨"InvalidPort", "Port name is required"⟩, some ("spec.ports[" ++ str n ++ "]")⟩
  | none => (muxOf cfg body).mapError fun e =>
    ⟨⟨"InvalidLoadBalancerClass", "Invalid loadBalancerClass format: " ++ e.message⟩, none⟩

end Handlers

/-! ## The controller -/

namespace Notifications

inductive TriggerPhase where
  /-- `for attempt in range(5)`. -/
  | searching (attempt : ℕ)
  /-- The queue is found, and nothing is put into it yet. -/
  | found (queue : ℕ)
  | delivered (queue : ℕ)
  /-- `kopf.TemporaryError`. -/
  | raised
  /-- `no_raise`. -/
  | skipped
deriving DecidableEq

/-- A call of `trigger_mux`. -/
structure Trigger where
  mux : String × String
  channel : ServiceBody
  noRaise : Bool
  phase : TriggerPhase

inductive DaemonPhase where
  /-- `while not stopped`. -/
  | looping
  /-- `Q.get(timeout=DAEMON_QUEUE_TIMEOUT)`. -/
  | waiting
  /-- The mux is being refreshed, and the index is not read yet. -/
  | refreshing
  | reconciling
  | exited
  | raised
deriving DecidableEq

/-- A call of `mux_daemon`, with the channels that it read last. -/
structure Daemon where
  key : String × String
  queue : ℕ
  phase : DaemonPhase
  channels : Option (List ServiceBody)

structure Controller where
  indexes : ChannelIndexes
  muxQueues : Mailboxes (String × String) ServiceBody
  triggers : Dict ℕ Trigger
  daemons : Dict ℕ Daemon

def Controller.started : Controller :=
  ⟨⟨Dict.empty, Dict.empty⟩, .empty, Dict.empty, Dict.empty⟩

inductive TriggerAction where
  | look
  | put
deriving DecidableEq

inductive DaemonAction where
  | loop (stopped : Bool)
  | get
  | timeout
  | read
  | reconciled
  | raise
deriving DecidableEq

/-- What can happen. The calls are numbered. -/
inductive Action where
  | watch (event : ServiceEvent)
  | handleChannelService (call : ℕ) (body : ServiceBody)
  | handleEndpoints (call : ℕ) (key : String × String)
  | channelDeletion (call : ℕ) (body : ServiceBody)
  | trigger (call : ℕ) (action : TriggerAction)
  | muxDeletion (muxKey : String × String)
  | start (call : ℕ) (muxKey : String × String)
  | daemon (call : ℕ) (action : DaemonAction)

namespace Controller

variable {ε : Type} (cfg : Config) (s : Controller)

/-- `trigger_mux` is called, unless the class of the channel cannot be read. -/
def callTrigger (call : ℕ) (mux : Except ε (String × String)) (channel : ServiceBody)
    (noRaise : Bool) : Option Controller :=
  if s.triggers.contains call then none
  else match mux with
    | .ok mux =>
      some { s with triggers := s.triggers.set call ⟨mux, channel, noRaise, .searching 0⟩ }
    | .error _ => some s

/-- One of the five attempts to get the queue of the mux. -/
def attempt (t : Trigger) (attempt : ℕ) : TriggerPhase :=
  match s.muxQueues.registry.get t.mux with
  | some queue => .found queue
  | none =>
    if attempt < 4 then .searching (attempt + 1) else if t.noRaise then .skipped else .raised

def stepTrigger (call : ℕ) (t : Trigger) : TriggerAction → Option Controller
  | .look =>
    match t.phase with
    | .searching n =>
      some { s with triggers := s.triggers.set call { t with phase := s.attempt t n } }
    | _ => none
  | .put =>
    match t.phase with
    | .found queue => some
        { s with
          triggers := s.triggers.set call { t with phase := .delivered queue }
          muxQueues := s.muxQueues.put queue t.channel }
    | _ => none

def setDaemon (call : ℕ) (d : Daemon) : Controller := { s with daemons := s.daemons.set call d }

def stepDaemon (call : ℕ) (d : Daemon) : DaemonAction → Option Controller
  | .loop stopped =>
    if d.phase = .looping then
      if stopped then some
        { s.setDaemon call { d with phase := .exited } with muxQueues := s.muxQueues.pop d.key }
      else some (s.setDaemon call { d with phase := .waiting })
    else none
  | .get =>
    if d.phase = .waiting then
      (s.muxQueues.get d.queue).map fun taken =>
        { s.setDaemon call { d with phase := .refreshing } with muxQueues := taken.2 }
    else none
  | .timeout =>
    if d.phase = .waiting ∧ s.muxQueues.contents d.queue = [] then
      some (s.setDaemon call { d with phase := .refreshing })
    else none
  | .read =>
    if d.phase = .refreshing then
      some (s.setDaemon call
        { d with phase := .reconciling, channels := some (s.indexes.channelsOf d.key) })
    else none
  | .reconciled =>
    if d.phase = .reconciling then some (s.setDaemon call { d with phase := .looping }) else none
  | .raise =>
    -- An API call fails, before the loop or in it.
    if d.phase ∈ [.looping, .refreshing, .reconciling] then
      some (s.setDaemon call { d with phase := .raised })
    else none

/-- The indexes change before the handlers run, and a mux gets its queue with them. -/
def watch (event : ServiceEvent) : Controller :=
  { s with
    indexes := s.indexes.observe cfg event
    muxQueues := match event with
      | .applied body =>
        if isIndexedMux cfg body then (s.muxQueues.setDefault body.key).1 else s.muxQueues
      | .deleted _ => s.muxQueues }

def step : Action → Option Controller
  | .watch event => some (s.watch cfg event)
  | .handleChannelService call body =>
    if isChannelService cfg body.toService then
      s.callTrigger call (SvcLbMux.handleChannelService cfg body) body false
    else none
  | .handleEndpoints call key =>
    (s.indexes.channelServices.get key).bind fun svc => s.callTrigger call (muxOf cfg svc) svc false
  | .channelDeletion call body =>
    if isChannelService cfg body.toService then s.callTrigger call (muxOf cfg body) body true else none
  | .trigger call action => (s.triggers.get call).bind fun t => s.stepTrigger call t action
  | .muxDeletion muxKey => some { s with muxQueues := s.muxQueues.pop muxKey }
  | .start call muxKey =>
    if s.daemons.contains call then none
    else
      let taken := s.muxQueues.setDefault muxKey
      some { s.setDaemon call ⟨muxKey, taken.2, .looping, none⟩ with muxQueues := taken.1 }
  | .daemon call action => (s.daemons.get call).bind fun d => s.stepDaemon call d action

def run (actions : List Action) : Option Controller := actions.foldlM (step cfg) s

end Controller

end Notifications

def muxBody : ServiceBody where
  namespace_ := "default"
  name := "mux"
  annotations := Dict.ofList [("svc-mux.nowake.ai/multiplexer", "true")]
  type := some "LoadBalancer"
  loadBalancerClass := none
  selector := none
  ports := [⟨some "placeholder", 101, some "TCP"⟩]

/-- The sample channel `web`, with its port. -/
def webChannel : ServiceBody := ⟨webService, [⟨some "http", 80, some "TCP"⟩]⟩

end SvcLbMux
