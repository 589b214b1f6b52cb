import SvcLbMux.Endpoints
import SvcLbMux.Library.History

namespace SvcLbMux

open Py History

/-- What the filters of the controller read of a Service. -/
structure Service where
  namespace_ : String
  name : String
  annotations : Dict String String
  type : Option String
  loadBalancerClass : Option String
  selector : Option (Dict String String)

def Service.key (service : Service) : String × String := (service.namespace_, service.name)

/-- `bool(spec.get("selector"))`. -/
def Service.hasSelector (service : Service) : Bool :=
  service.selector.any fun selector => selector.entries ≠ []

/-- The kopf indexes of channels and of muxes, by namespace and name of the Service. -/
structure Indexes where
  channelServices : Dict (String × String) Service
  multiplexerServices : Dict (String × String) Service

def Indexes.empty : Indexes := ⟨Dict.empty, Dict.empty⟩

def isChannelEndpoints (indexes : Indexes) (key : String × String) : Bool :=
  indexes.channelServices.contains key

def isMultiplexerEndpoints (indexes : Indexes) (key : String × String) : Bool :=
  indexes.multiplexerServices.contains key

abbrev MemoEndpoints := Dict (String × String) Endpoints

/-- A watch event of one of the two streams. A creation, an update and a resumption deliver the
object in the same way. -/
inductive WatchEvent where
  | serviceApplied (service : Service)
  | serviceDeleted (service : Service)
  | endpointsApplied (key : String × String) (body : Endpoints)
  | endpointsDeleted (key : String × String)

section Handlers

variable (cfg : Config)

def hasMultiplexerAnnotation (service : Service) : Bool :=
  service.annotations.get (cfg.annotationKey "multiplexer") = some "true"

def isMultiplexerService (service : Service) : Bool :=
  hasMultiplexerAnnotation cfg service && service.type = some "LoadBalancer" &&
    !service.hasSelector

def isChannelService (service : Service) : Bool :=
  service.type = some "LoadBalancer" &&
    (cfg.apiPrefix ++ "/").toList.isPrefixOf (service.loadBalancerClass.getD "").toList

/-- What the index function of the muxes returns, or the event that it emits instead. -/
def multiplexerServices (service : Service) : Except Event Service :=
  if service.type ≠ some "LoadBalancer" then
    .error ⟨"NotLoadBalancer", "Multiplexer service has to be of type LoadBalancer"⟩
  else if service.hasSelector then
    .error ⟨"NotSupported", "Multiplexer service with selectors are not supported"⟩
  else .ok service

/-- kopf drops an object that an index does not select. -/
def indexService (indexes : Indexes) (service : Service) : Indexes :=
  ⟨if isChannelService cfg service then indexes.channelServices.set service.key service
    else indexes.channelServices.erase service.key,
    if hasMultiplexerAnnotation cfg service then
      match multiplexerServices service with
      | .ok body => indexes.multiplexerServices.set service.key body
      -- The index function returns `None`, with which kopf keeps what it has of the object.
      | .error _ => indexes.multiplexerServices
    else indexes.multiplexerServices.erase service.key⟩

def discardService (indexes : Indexes) (service : Service) : Indexes :=
  ⟨indexes.channelServices.erase service.key, indexes.multiplexerServices.erase service.key⟩

def observe (indexes : Indexes) : WatchEvent → Indexes
  | .serviceApplied service => indexService cfg indexes service
  | .serviceDeleted service => discardService indexes service
  | .endpointsApplied _ _ => indexes
  | .endpointsDeleted _ => indexes

def handleEndpoints (indexes : Indexes) (key : String × String) (body : Endpoints)
    (memo : MemoEndpoints) : MemoEndpoints :=
  indexes.channelServices.entries.foldl
    (fun memo svc => if svc.1 ≠ key then memo else memo.set key body) memo

def muxEndpoints (key : String × String) (body : Endpoints) (memo : MemoEndpoints) :
    MemoEndpoints :=
  memo.set key body

def channelDeletion (service : Service) (memo : MemoEndpoints) : MemoEndpoints :=
  memo.erase service.key

def muxDeletion (service : Service) (memo : MemoEndpoints) : MemoEndpoints :=
  memo.erase service.key

/-- What the handlers of an event leave in the cache. -/
def handle (indexes : Indexes) (memo : MemoEndpoints) : WatchEvent → MemoEndpoints
  -- `handle_channel_service` triggers the mux and does not look at Endpoints.
  | .serviceApplied _ => memo
  | .serviceDeleted service =>
    let memo := if isChannelService cfg service then channelDeletion service memo else memo
    if isMultiplexerService cfg service then muxDeletion service memo else memo
  | .endpointsApplied key body =>
    let memo :=
      if isChannelEndpoints indexes key then handleEndpoints indexes key body memo else memo
    if isMultiplexerEndpoints indexes key then muxEndpoints key body memo else memo
  -- No handler is registered for the deletion of Endpoints.
  | .endpointsDeleted _ => memo

/-- One event of either stream: the indexes are updated before the handlers run. -/
def process (s : Indexes × MemoEndpoints) (event : WatchEvent) : Indexes × MemoEndpoints :=
  (observe cfg s.1 event, handle cfg (observe cfg s.1 event) s.2 event)

/-- The indexes and the cache of the controller after a run. A list of events is any interleaving
of its Service events with its Endpoints events. -/
def watch (events : List WatchEvent) : Indexes × MemoEndpoints :=
  events.foldl (process cfg) (Indexes.empty, Dict.empty)

/-- The indexes do not depend on the cache. -/
def indexesAfter (events : List WatchEvent) : Indexes := events.foldl (observe cfg) Indexes.empty

end Handlers

/-- The Endpoints of a name as its stream showed them last, if they exist. -/
def lastObserved (key : String × String) (events : List WatchEvent) : Option Endpoints :=
  events.foldl (fun last event =>
    match event with
    | .endpointsApplied k body => if k = key then some body else last
    | .endpointsDeleted k => if k = key then none else last
    | .serviceApplied _ => last
    | .serviceDeleted _ => last) none

/-! ## What an event does to the entry of a name -/

/-- The event brings Endpoints of a name that is the name of a channel or of a mux. -/
def Caches (key : String × String) (body : Endpoints) (indexes : Indexes) (event : WatchEvent) :
    Prop :=
  event = .endpointsApplied key body ∧
    (isChannelEndpoints indexes key = true ∨ isMultiplexerEndpoints indexes key = true)

/-- The event deletes the channel or the mux of that name. -/
def Drops (cfg : Config) (key : String × String) (event : WatchEvent) : Prop :=
  ∃ service, event = .serviceDeleted service ∧ service.key = key ∧
    (isChannelService cfg service = true ∨ isMultiplexerService cfg service = true)

/-- What an event writes to the entry of a name, if it writes to it. -/
def entryWrite (cfg : Config) (key : String × String) (indexes : Indexes) :
    WatchEvent → Option (Option Endpoints)
  | .endpointsApplied k body =>
    if k = key ∧ (isChannelEndpoints indexes key || isMultiplexerEndpoints indexes key) then
      some (some body)
    else none
  | .serviceDeleted service =>
    if service.key = key ∧ (isChannelService cfg service || isMultiplexerService cfg service) then
      some none
    else none
  | .serviceApplied _ => none
  | .endpointsDeleted _ => none

variable {cfg : Config} {key : String × String}

theorem entryWrite_eq_store_iff (cfg : Config) (indexes : Indexes) (event : WatchEvent)
    (body : Endpoints) :
    entryWrite cfg key indexes event = some (some body) ↔ Caches key body indexes event := by
  cases event with
  | endpointsApplied k b =>
    simp only [entryWrite, Caches, WatchEvent.endpointsApplied.injEq, Bool.or_eq_true]
    split_ifs with h
    · obtain ⟨rfl, hindexed⟩ := h
      simp [hindexed]
    · simp only [false_iff]
      rintro ⟨⟨rfl, -⟩, hindexed⟩
      exact h ⟨rfl, hindexed⟩
  | serviceDeleted service =>
    simp only [entryWrite, Caches, reduceCtorEq, false_and, iff_false]
    split_ifs <;> simp
  | serviceApplied service => simp [entryWrite, Caches]
  | endpointsDeleted k => simp [entryWrite, Caches]

theorem entryWrite_eq_clear_iff (indexes : Indexes) (event : WatchEvent) :
    entryWrite cfg key indexes event = some none ↔ Drops cfg key event := by
  cases event with
  | serviceDeleted service =>
    simp only [entryWrite, Drops, WatchEvent.serviceDeleted.injEq, exists_eq_left', Bool.or_eq_true]
    split_ifs with h <;> simp [h]
  | endpointsApplied k b =>
    simp only [entryWrite, Drops, reduceCtorEq, false_and, exists_false, iff_false]
    split_ifs <;> simp
  | serviceApplied service => simp [entryWrite, Drops]
  | endpointsDeleted k => simp [entryWrite, Drops]

theorem entryWrite_only_iff (indexes : Indexes) (event : WatchEvent) (body : Endpoints) :
    (∀ w, entryWrite cfg key indexes event = some w → w = some body) ↔
      ¬ Drops cfg key event ∧ ∀ other, Caches key other indexes event → other = body := by
  rw [← entryWrite_eq_clear_iff indexes]
  simp only [← entryWrite_eq_store_iff cfg]
  constructor
  · intro h
    exact ⟨fun hclear => by simpa using h none hclear,
      fun other hother => Option.some.inj (h (some other) hother)⟩
  · rintro ⟨hclear, hstore⟩ (_ | other) hw
    · exact absurd hw hclear
    · rw [hstore other hw]

theorem get_handleEndpoints (indexes : Indexes) (body : Endpoints) (memo : MemoEndpoints)
    {k : String × String} (h : isChannelEndpoints indexes k = true) :
    (handleEndpoints indexes k body memo).get key =
      if k = key then some body else memo.get key := by
  -- The loop over the Services of the namespace writes only under the name of the event.
  have hloop : ∀ (svcs : List ((String × String) × Service)) (memo : MemoEndpoints),
      (svcs.foldl (fun memo svc => if svc.1 ≠ k then memo else memo.set k body) memo).get key =
        if k = key ∧ k ∈ svcs.map Prod.fst then some body else memo.get key := by
    intro svcs
    induction svcs with
    | nil => simp
    | cons svc svcs ih =>
      obtain ⟨j, svc⟩ := svc
      intro memo
      rw [List.foldl_cons, ih]
      by_cases hj : j = k
      · by_cases hk : k = key <;> simp [hj, hk]
      · have hmem : k ∈ ((j, svc) :: svcs).map Prod.fst ↔ k ∈ svcs.map Prod.fst := by
          rw [List.map_cons, List.mem_cons, or_iff_right (Ne.symm hj)]
        simp only [ne_eq, hj, not_false_eq_true, if_true, hmem]
  have hmem : k ∈ indexes.channelServices.keys := (Dict.contains_eq_true _ _).mp h
  rw [handleEndpoints, hloop]
  simp only [Dict.keys] at hmem
  simp [hmem]

theorem get_handle (indexes : Indexes) (memo : MemoEndpoints) (event : WatchEvent) :
    (handle cfg (observe cfg indexes event) memo event).get key =
      (entryWrite cfg key indexes event).getD (memo.get key) := by
  cases event with
  | serviceApplied service => rfl
  | endpointsDeleted k => rfl
  | serviceDeleted service =>
    by_cases hk : service.key = key <;> cases hchannel : isChannelService cfg service <;>
      cases hmux : isMultiplexerService cfg service <;>
      simp [handle, entryWrite, channelDeletion, muxDeletion, hchannel, hmux, hk]
  | endpointsApplied k body =>
    cases hchannel : isChannelEndpoints indexes k <;>
      cases hmux : isMultiplexerEndpoints indexes k <;> by_cases hk : k = key <;>
      simp_all [handle, observe, entryWrite, muxEndpoints, get_handleEndpoints]

/-! ## The cache after a run -/

theorem watch_append_singleton (events : List WatchEvent) (event : WatchEvent) :
    watch cfg (events ++ [event]) = process cfg (watch cfg events) event := by
  simp [watch]

theorem indexes_watch (events : List WatchEvent) :
    (watch cfg events).1 = indexesAfter cfg events := by
  induction events using List.reverseRecOn with
  | nil => rfl
  | append_singleton events event ih =>
    rw [watch_append_singleton, process, ih, indexesAfter, indexesAfter, List.foldl_append]
    rfl

theorem get_watch_append_singleton (events : List WatchEvent) (event : WatchEvent) :
    (watch cfg (events ++ [event])).2.get key =
      (entryWrite cfg key (indexesAfter cfg events) event).getD ((watch cfg events).2.get key) := by
  rw [watch_append_singleton, process, indexes_watch, get_handle]

/-- Every existing channel has in the cache the Endpoints that were observed last. -/
def CacheCurrent (cfg : Config) (events : List WatchEvent) : Prop :=
  ∀ key, isChannelEndpoints (watch cfg events).1 key = true →
    (watch cfg events).2.get key = lastObserved key events

/-- The Endpoints of a name that exist came at a time when the name was that of a channel or of a
mux, which has not been deleted since, and no other Endpoints of the name came when it was. If there
are none any more, every time such Endpoints came the channel or the mux was deleted after it. -/
def Followed (cfg : Config) (events : List WatchEvent) (key : String × String) : Prop :=
  match lastObserved key events with
  | some body =>
    Since (observe cfg) Indexes.empty events (Caches key body) fun indexes event =>
      ¬ Drops cfg key event ∧ ∀ other, Caches key other indexes event → other = body
  | none =>
    ¬ Since (observe cfg) Indexes.empty events
      (fun indexes event => ∃ body, Caches key body indexes event)
      fun _ event => ¬ Drops cfg key event

/-- For any interleaving of the two streams: the cache is current for the channels that exist at the
end if and only if the run has followed each of them. -/
theorem cache_current_iff (cfg : Config) (events : List WatchEvent) :
    CacheCurrent cfg events ↔
      ∀ key, isChannelEndpoints (watch cfg events).1 key = true → Followed cfg events key := by
  refine forall_congr' fun key => forall_congr' fun _ => ?_
  let entry : List WatchEvent → Option Endpoints := fun events => (watch cfg events).2.get key
  have hnil : entry [] = none := rfl
  have hstep : ∀ events event, entry (events ++ [event]) =
      (entryWrite cfg key (indexesAfter cfg events) event).getD (entry events) :=
    get_watch_append_singleton
  change entry events = _ ↔ _
  unfold Followed
  cases lastObserved key events with
  | some body =>
    rw [cell_eq_some_iff entry hnil hstep]
    simp only [entryWrite_eq_store_iff, entryWrite_only_iff]
  | none =>
    rw [← not_iff_not, not_not, ← ne_eq,
      cell_ne_none_iff entry hnil hstep]
    simp only [entryWrite_eq_store_iff, entryWrite_eq_clear_iff, ne_eq]

/-- The sample channel `web`, as its watch delivers it. -/
def webService : Service :=
  ⟨"default", "web", Dict.empty, some "LoadBalancer", some "svc-mux.nowake.ai/mux", none⟩

def webBody : Endpoints :=
  ⟨Dict.empty, Dict.empty, some [⟨["10.0.0.1"], [], [⟨some "http", 8080, "TCP"⟩]⟩]⟩

/-- The Endpoints of `web` are missed when they come before its Service, and stay when they are
deleted. -/
theorem cache_depends_on_order :
    let service := WatchEvent.serviceApplied webService
    let endpoints := WatchEvent.endpointsApplied ("default", "web") webBody
    (watch sampleConfig [service, endpoints]).2.get ("default", "web") = some webBody ∧
      (watch sampleConfig [endpoints, service]).2.get ("default", "web") = none ∧
      ¬ CacheCurrent sampleConfig [endpoints, service] ∧
      ¬ CacheCurrent sampleConfig [service, endpoints, .endpointsDeleted ("default", "web")] := by
  refine ⟨by decide +kernel, by decide +kernel, fun h => ?_, fun h => ?_⟩
  · exact absurd (h ("default", "web") (by decide +kernel)) (by decide +kernel)
  · exact absurd (h ("default", "web") (by decide +kernel)) (by decide +kernel)

end SvcLbMux
