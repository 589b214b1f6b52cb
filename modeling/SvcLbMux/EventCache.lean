import SvcLbMux.DebugEvents
import SvcLbMux.Library.Dict

namespace SvcLbMux

open Py

/-! ## The cache -/

namespace CacheDict

variable {κ α : Type*} [DecidableEq κ]

/-- `OrderedDict.move_to_end`, where the key is there. -/
def moveToEnd (d : Dict κ α) (key : κ) : Dict κ α :=
  match d.get key with
  | none => d
  | some value => (d.erase key).set key value

/-- The loop that deletes the first key while there are too many. -/
def ejectLoop (cacheLen : ℕ) : List (κ × α) → List (κ × α)
  | [] => []
  | entry :: entries =>
    if cacheLen < (entry :: entries).length then ejectLoop cacheLen entries else entry :: entries

omit [DecidableEq κ] in
theorem ejectLoop_eq_drop (cacheLen : ℕ) (entries : List (κ × α)) :
    ejectLoop cacheLen entries = entries.drop (entries.length - cacheLen) := by
  induction entries with
  | nil => simp [ejectLoop]
  | cons entry entries ih =>
    rw [ejectLoop, List.length_cons]
    split_ifs with hlen
    · have hsub : entries.length + 1 - cacheLen = (entries.length - cacheLen) + 1 := by omega
      rw [ih, hsub, List.drop_succ_cons]
    · rw [Nat.sub_eq_zero_of_le (by omega), List.drop_zero]

def eject (cacheLen : ℕ) (d : Dict κ α) : Dict κ α :=
  ⟨ejectLoop cacheLen d.entries, by
    rw [ejectLoop_eq_drop]
    exact ((List.drop_sublist _ _).map Prod.fst).nodup d.nodup⟩

/-- `__setitem__`. -/
def setItem (cacheLen : ℕ) (d : Dict κ α) (key : κ) (value : α) : Dict κ α :=
  eject cacheLen (moveToEnd (d.set key value) key)

theorem keys_moveToEnd {d : Dict κ α} {key : κ} (h : key ∈ d.keys) :
    (moveToEnd d key).keys = d.keys.erase key ++ [key] := by
  obtain ⟨value, hget⟩ := (Dict.mem_keys_iff d key).mp h
  have hnot : key ∉ (d.erase key).keys := by
    rw [Dict.keys_erase]
    exact fun hmem => (d.nodup.mem_erase_iff.mp hmem).1 rfl
  rw [moveToEnd, hget]
  dsimp only
  rw [Dict.keys_set_of_notMem hnot, Dict.keys_erase]

omit [DecidableEq κ] in
theorem keys_eject (cacheLen : ℕ) (d : Dict κ α) :
    (eject cacheLen d).keys.reverse = d.keys.reverse.take cacheLen := by
  rw [List.take_reverse, Dict.keys, Dict.keys, eject, List.length_map]
  dsimp only
  rw [ejectLoop_eq_drop, List.map_drop]

theorem reverse_erase_append (d : Dict κ α) (key : κ) :
    (d.keys.erase key ++ [key]).reverse = key :: d.keys.reverse.erase key := by
  have hnodup : d.keys.Nodup := d.nodup
  rw [List.reverse_append, List.reverse_singleton, List.singleton_append,
    hnodup.erase_eq_filter, (List.nodup_reverse.mpr hnodup).erase_eq_filter, List.filter_reverse]

theorem keys_setItem (cacheLen : ℕ) (d : Dict κ α) (key : κ) (value : α) :
    (setItem cacheLen d key value).keys.reverse =
      Recency.touch cacheLen d.keys.reverse key := by
  have hmem : key ∈ (d.set key value).keys :=
    (Dict.mem_keys_iff _ _).mpr ⟨value, Dict.get_set_self d key value⟩
  have hkeys : (d.set key value).keys.erase key = d.keys.erase key := by
    by_cases h : key ∈ d.keys
    · rw [Dict.keys_set_of_mem h]
    · rw [Dict.keys_set_of_notMem h, List.erase_append_right _ h, List.erase_cons_head,
        List.append_nil, List.erase_of_not_mem h]
  rw [setItem, keys_eject, keys_moveToEnd hmem, hkeys, reverse_erase_append, Recency.touch]

theorem get_moveToEnd (d : Dict κ α) (key j : κ) : (moveToEnd d key).get j = d.get j := by
  unfold moveToEnd
  cases hget : d.get key with
  | none => rfl
  | some value =>
    dsimp only
    rw [Dict.get_set, Dict.get_erase]
    split_ifs with h
    · rw [← h, hget]
    · rfl

theorem get_setItem {cacheLen : ℕ} {d : Dict κ α} {key j : κ} {value found : α}
    (h : (setItem cacheLen d key value).get j = some found) :
    (key = j ∧ value = found) ∨ d.get j = some found := by
  have hmem : (j, found) ∈ (moveToEnd (d.set key value) key).entries := by
    have hentry := (Dict.get_eq_some_iff _ _ _).mp h
    rw [setItem, eject] at hentry
    dsimp only at hentry
    rw [ejectLoop_eq_drop] at hentry
    exact List.mem_of_mem_drop hentry
  have hget := (Dict.get_eq_some_iff _ _ _).mpr hmem
  rw [get_moveToEnd, Dict.get_set] at hget
  split_ifs at hget with hkey
  · exact Or.inl ⟨hkey, Option.some.inj hget⟩
  · exact Or.inr hget

end CacheDict

/-! ## Recording an event -/

/-- What `record_event` reads of the object that an event is about. -/
structure EventBody where
  apiVersion : String
  kind : String
  name : String
  uid : String
  namespace_ : String
deriving DecidableEq

structure ObjectReference where
  apiVersion : String
  kind : String
  name : String
  uid : String
  namespace_ : String
  fieldPath : Option String
deriving DecidableEq

/-- The identity of an event: the uid of its object, its type, reason, message and action. -/
abbrev EventKey := String × String × String × String × String

/-- A Kubernetes Event; one that was never patched has no count. -/
structure EventObject where
  name : String
  namespace_ : String
  involvedObject : ObjectReference
  reason : String
  message : String
  type : String
  action : Option String
  component : String
  firstTimestamp : String
  lastTimestamp : String
  count : Option ℕ
deriving DecidableEq

def EventObject.key (event : EventObject) : EventKey :=
  (event.involvedObject.uid, event.type, event.reason, event.message, event.action.getD "")

inductive PatchOutcome where
  | succeeds
  | notFound
  | fails
deriving DecidableEq

/-- A call of `record_event`, with the times that it reads from the clock and what becomes of the
requests that it makes: the outcome of a patch, and how many attempts to create an Event fail. -/
structure EventCall where
  body : EventBody
  eventType : String
  reason : String
  message : String
  action : Option String
  fieldPath : Option String
  timestamp : String
  now : String
  patchOutcome : PatchOutcome
  createFailures : ℕ

namespace EventCall

def key (call : EventCall) : EventKey :=
  (call.body.uid, call.eventType, strip call.reason, strip call.message, call.action.getD "")

def Succeeds (call : EventCall) : Prop := call.patchOutcome = .succeeds ∧ call.createFailures = 0

/-- `bodies.build_object_reference(body)`, with the field path if there is one. -/
def ref (call : EventCall) : ObjectReference where
  apiVersion := call.body.apiVersion
  kind := call.body.kind
  name := call.body.name
  uid := call.body.uid
  namespace_ := call.body.namespace_
  fieldPath := call.fieldPath.filter (· ≠ "")

end EventCall

inductive ApiRequest where
  | create (event : EventObject)
  | patch (event : EventObject) (count : ℕ) (lastTimestamp : String)
deriving DecidableEq

/-- The environment of `events.py`. -/
structure EventSettings where
  podName : String
  dryrunMode : Bool

structure EventRecorder where
  cache : Dict EventKey EventObject
  requests : List ApiRequest
  debugEvents : List DebugEvent

def eventCacheLen : ℕ := 1024

namespace EventRecorder

def empty : EventRecorder := ⟨Dict.empty, [], []⟩

variable (settings : EventSettings)

def newEvent (call : EventCall) : EventObject where
  name := call.body.name ++ "-" ++ strip call.reason ++ "." ++ call.timestamp
  namespace_ := call.body.namespace_
  involvedObject := call.ref
  reason := strip call.reason
  message := strip call.message
  type := call.eventType
  action := call.action
  component := settings.podName
  firstTimestamp := call.timestamp
  lastTimestamp := call.timestamp
  count := none

/-- The event for the debug API, which every call ends with unless an Event cannot be created. -/
def recordDebugEvent (st : EventRecorder) (call : EventCall) : EventRecorder :=
  { st with
    debugEvents := DebugStateStore.recordEvent st.debugEvents
      { now := call.now
        eventType := call.eventType
        resource := call.body.namespace_ ++ "/" ++ call.body.name
        message := strip call.reason ++ ": " ++ strip call.message } }

/-- Up to three attempts; after the third failure the call returns. -/
def createEvent (st : EventRecorder) (call : EventCall) : EventRecorder :=
  let event := newEvent settings call
  let attempts := min (call.createFailures + 1) 3
  let st := { st with requests := st.requests ++ List.replicate attempts (.create event) }
  if call.createFailures < 3 then
    recordDebugEvent
      { st with cache := CacheDict.setItem eventCacheLen st.cache call.key event } call
  else st

def recordEvent (st : EventRecorder) (call : EventCall) : EventRecorder :=
  match st.cache.get call.key with
  | none => if settings.dryrunMode then recordDebugEvent st call else createEvent settings st call
  | some cachedEvent =>
    if settings.dryrunMode then recordDebugEvent st call
    else
      let count := cachedEvent.count.getD 1 + 1
      let requests := st.requests ++ [.patch cachedEvent count call.timestamp]
      match call.patchOutcome with
      | .succeeds =>
        -- The cached object itself takes up the answer, in the place that it has in the cache.
        let patched :=
          { cachedEvent with count := some count, lastTimestamp := call.timestamp }
        recordDebugEvent
          { st with cache := st.cache.set call.key patched, requests := requests } call
      | .notFound => createEvent settings { st with requests := requests } call
      | .fails => createEvent settings { st with requests := requests } call

def recordEvents (calls : List EventCall) : EventRecorder :=
  calls.foldl (recordEvent settings) empty

/-! ## What the cache holds -/

/-- The identities of the Events that were created, in this order. -/
def createdKeys (requests : List ApiRequest) : List EventKey :=
  requests.filterMap fun request =>
    match request with
    | .create event => some event.key
    | .patch _ _ _ => none

/-- The cached Events are those that were created last, each under its identity. -/
structure CachesCreated (st : EventRecorder) : Prop where
  keys : st.cache.keys.reverse = Recency.recent eventCacheLen (createdKeys st.requests)
  filed : ∀ key event, st.cache.get key = some event → event.key = key

/-- The call patches the Event of its identity, whose count goes up by one, and does no more. -/
def Coalesces (st : EventRecorder) (call : EventCall) : Prop :=
  ∃ event, event.key = call.key ∧ st.cache.get call.key = some event ∧
    (recordEvent settings st call).requests =
      st.requests ++ [.patch event (event.count.getD 1 + 1) call.timestamp]

/-- The call creates a new Event of its identity, and does no more. -/
def Creates (st : EventRecorder) (call : EventCall) : Prop :=
  ∃ event, event.key = call.key ∧
    (recordEvent settings st call).requests = st.requests ++ [.create event]

variable {settings} {st : EventRecorder} {call : EventCall}

@[simp] theorem key_newEvent (settings : EventSettings) (call : EventCall) :
    (newEvent settings call).key = call.key := rfl

@[simp] theorem cache_recordDebugEvent (st : EventRecorder) (call : EventCall) :
    (recordDebugEvent st call).cache = st.cache := rfl

@[simp] theorem requests_recordDebugEvent (st : EventRecorder) (call : EventCall) :
    (recordDebugEvent st call).requests = st.requests := rfl

theorem recordEvent_cases (st : EventRecorder) (hlive : settings.dryrunMode = false)
    (hok : call.Succeeds) :
    (∃ event, st.cache.get call.key = some event ∧
      (recordEvent settings st call).requests =
        st.requests ++ [.patch event (event.count.getD 1 + 1) call.timestamp] ∧
      ∃ patched, patched.key = event.key ∧
        (recordEvent settings st call).cache = st.cache.set call.key patched) ∨
    st.cache.get call.key = none ∧
      (recordEvent settings st call).requests =
        st.requests ++ [.create (newEvent settings call)] ∧
      (recordEvent settings st call).cache =
        CacheDict.setItem eventCacheLen st.cache call.key (newEvent settings call) := by
  obtain ⟨hpatch, hcreate⟩ := hok
  unfold recordEvent
  cases hget : st.cache.get call.key with
  | some event =>
    refine Or.inl ⟨event, rfl, ?_⟩
    simp only [hlive, hpatch]
    exact ⟨rfl, { event with
      count := some (event.count.getD 1 + 1)
      lastTimestamp := call.timestamp }, rfl, rfl⟩
  | none =>
    refine Or.inr ⟨rfl, ?_⟩
    simp [hlive, createEvent, hcreate]

theorem createdKeys_append_patch (requests : List ApiRequest) (event : EventObject) (count : ℕ)
    (lastTimestamp : String) :
    createdKeys (requests ++ [.patch event count lastTimestamp]) = createdKeys requests := by
  simp [createdKeys]

theorem createdKeys_append_create (requests : List ApiRequest) (event : EventObject) :
    createdKeys (requests ++ [.create event]) = createdKeys requests ++ [event.key] := by
  simp [createdKeys]

theorem CachesCreated.recordEvent (h : st.CachesCreated) (hlive : settings.dryrunMode = false)
    (hok : call.Succeeds) : (recordEvent settings st call).CachesCreated := by
  obtain ⟨event, hget, hrequests, patched, hkey, hcache⟩ | ⟨hget, hrequests, hcache⟩ :=
    recordEvent_cases st hlive hok
  · have hmem : call.key ∈ st.cache.keys := (Dict.mem_keys_iff _ _).mpr ⟨event, hget⟩
    refine ⟨?_, fun key found hfound => ?_⟩
    · rw [hcache, Dict.keys_set_of_mem hmem, hrequests, createdKeys_append_patch, h.keys]
    · rw [hcache, Dict.get_set] at hfound
      split_ifs at hfound with hsame
      · rw [← Option.some.inj hfound, hkey, h.filed _ _ hget, hsame]
      · exact h.filed key found hfound
  · refine ⟨?_, fun key found hfound => ?_⟩
    · rw [hcache, CacheDict.keys_setItem, hrequests, createdKeys_append_create, key_newEvent,
        Recency.recent_append_singleton, h.keys]
    · rw [hcache] at hfound
      rcases CacheDict.get_setItem hfound with ⟨rfl, rfl⟩ | hold
      · exact key_newEvent settings call
      · exact h.filed key found hold

theorem recordEvents_append_singleton (calls : List EventCall) (call : EventCall) :
    recordEvents settings (calls ++ [call]) =
      EventRecorder.recordEvent settings (recordEvents settings calls) call := by
  rw [recordEvents, List.foldl_append]
  rfl

theorem cachesCreated_recordEvents (hlive : settings.dryrunMode = false) {calls : List EventCall}
    (hok : ∀ c ∈ calls, c.Succeeds) : (recordEvents settings calls).CachesCreated := by
  induction calls using List.reverseRecOn with
  | nil => exact ⟨(Recency.recent_nil _).symm, fun key event h => by simp [recordEvents, empty] at h⟩
  | append_singleton calls c ih =>
    rw [recordEvents_append_singleton]
    exact (ih fun d hd => hok d (List.mem_append_left _ hd)).recordEvent hlive (hok c (by simp))

theorem CachesCreated.cached_iff (h : st.CachesCreated) (key : EventKey) :
    (∃ event, st.cache.get key = some event) ↔
      Recency.UsedRecently eventCacheLen (createdKeys st.requests) key := by
  rw [← Dict.mem_keys_iff, ← List.mem_reverse, h.keys, Recency.mem_recent_iff]

/-- A successful call patches if and only if the Event of its identity was created recently. -/
theorem CachesCreated.coalesces_iff (h : st.CachesCreated) (hlive : settings.dryrunMode = false)
    (hok : call.Succeeds) :
    Coalesces settings st call ↔
      Recency.UsedRecently eventCacheLen (createdKeys st.requests) call.key := by
  rw [← h.cached_iff]
  constructor
  · rintro ⟨event, -, hget, -⟩
    exact ⟨event, hget⟩
  · rintro ⟨event, hget⟩
    obtain ⟨event', hget', hrequests, -⟩ | ⟨hnone, -⟩ :=
      recordEvent_cases st hlive hok
    · exact ⟨event', h.filed _ _ hget', hget', hrequests⟩
    · rw [hnone] at hget
      cases hget

theorem CachesCreated.creates_iff (h : st.CachesCreated) (hlive : settings.dryrunMode = false)
    (hok : call.Succeeds) :
    Creates settings st call ↔
      ¬ Recency.UsedRecently eventCacheLen (createdKeys st.requests) call.key := by
  rw [← h.cached_iff]
  obtain ⟨event, hget, hrequests, -⟩ | ⟨hnone, hrequests, -⟩ :=
    recordEvent_cases st hlive hok
  · refine iff_of_false ?_ (not_not.mpr ⟨event, hget⟩)
    rintro ⟨created, -, hcreate⟩
    rw [hrequests] at hcreate
    have hlast := List.append_cancel_left hcreate
    simp at hlast
  · refine iff_of_true ⟨_, key_newEvent settings call, hrequests⟩ ?_
    rintro ⟨event, hget⟩
    rw [hnone] at hget
    cases hget

/-- An identity that was recorded, and after which fewer other identities than the cache has room
for were recorded, is patched again if and only if its Event was created recently as well: a patch
does not renew the place of an Event in the cache. -/
theorem recent_event_coalesces_iff (settings : EventSettings)
    (hlive : settings.dryrunMode = false) (calls : List EventCall) (call : EventCall)
    (hok : ∀ c ∈ calls ++ [call], c.Succeeds) :
    (Recency.UsedRecently eventCacheLen (calls.map EventCall.key) call.key →
        Coalesces settings (recordEvents settings calls) call) ↔
      (Recency.UsedRecently eventCacheLen (calls.map EventCall.key) call.key →
        Recency.UsedRecently eventCacheLen
          (createdKeys (recordEvents settings calls).requests) call.key) := by
  have h := cachesCreated_recordEvents hlive fun c hc => hok c (List.mem_append_left _ hc)
  exact imp_congr_right fun _ => h.coalesces_iff hlive (hok call (by simp))

/-! ## An Event that is evicted while it is in use -/

theorem CachesCreated.createdKeys_recordEvent (h : st.CachesCreated)
    (hlive : settings.dryrunMode = false) (hok : call.Succeeds) :
    (Recency.UsedRecently eventCacheLen (createdKeys st.requests) call.key →
      createdKeys (EventRecorder.recordEvent settings st call).requests =
        createdKeys st.requests) ∧
    (¬ Recency.UsedRecently eventCacheLen (createdKeys st.requests) call.key →
      createdKeys (EventRecorder.recordEvent settings st call).requests =
        createdKeys st.requests ++ [call.key]) := by
  constructor
  · intro hrecent
    obtain ⟨event, -, -, hrequests⟩ := (h.coalesces_iff hlive hok).mpr hrecent
    rw [hrequests, createdKeys_append_patch]
  · intro hrecent
    obtain ⟨event, hkey, hrequests⟩ := (h.creates_iff hlive hok).mpr hrecent
    rw [hrequests, createdKeys_append_create, hkey]

theorem createdKeys_recordEvents_of_nodup (hlive : settings.dryrunMode = false)
    {calls : List EventCall} (hok : ∀ c ∈ calls, c.Succeeds)
    (hnodup : (calls.map EventCall.key).Nodup) :
    createdKeys (recordEvents settings calls).requests = calls.map EventCall.key := by
  induction calls using List.reverseRecOn with
  | nil => rfl
  | append_singleton calls c ih =>
    have hok' : ∀ d ∈ calls, d.Succeeds := fun d hd => hok d (List.mem_append_left _ hd)
    rw [List.map_append, List.nodup_append] at hnodup
    have hcreated := ih hok' hnodup.1
    have hfresh : ¬ Recency.UsedRecently eventCacheLen
        (createdKeys (recordEvents settings calls).requests) c.key := by
      rw [← Recency.mem_recent_iff, hcreated]
      intro hmem
      exact hnodup.2.2 _ (Recency.mem_of_mem_recent hmem) c.key (by simp) rfl
    have h := cachesCreated_recordEvents hlive hok'
    rw [recordEvents_append_singleton,
      (h.createdKeys_recordEvent hlive (hok c (by simp))).2 hfresh, hcreated, List.map_append]
    rfl

/-- Events of one object whose messages differ in their lengths. -/
def tickCall (i : ℕ) : EventCall where
  body := ⟨"v1", "Service", "mux", "0f2b", "default"⟩
  eventType := "Normal"
  reason := "Tick"
  message := String.ofList (List.replicate i 'x')
  action := none
  fieldPath := none
  timestamp := "2026-01-01T00:00:00+00:00"
  now := "2026-01-01T00:00:00"
  patchOutcome := .succeeds
  createFailures := 0

def liveSettings : EventSettings := ⟨"svc-lb-mux", false⟩

theorem key_tickCall_injective : Function.Injective fun i => (tickCall i).key := by
  intro i j h
  have hspace : ∀ i, ∀ c ∈ (String.ofList (List.replicate i 'x')).toList, isSpace c = false := by
    intro i c hc
    rw [String.toList_ofList] at hc
    rw [List.eq_of_mem_replicate hc]
    decide
  simp only [tickCall, EventCall.key, strip_eq_self (hspace _), Prod.mk.injEq, and_true,
    true_and] at h
  have hlength := congrArg (fun s : String => s.toList.length) h
  simpa using hlength

theorem succeeds_tickCall (i : ℕ) : (tickCall i).Succeeds := ⟨rfl, rfl⟩

/-- An event that is recorded again after two others, one of which was recorded twice. -/
theorem recent_event_coalesces_sampleCalls :
    let calls := [tickCall 0, tickCall 1, tickCall 2, tickCall 1]
    Coalesces liveSettings (recordEvents liveSettings calls) (tickCall 0) := by
  intro calls
  have hok : ∀ c ∈ calls ++ [tickCall 0], c.Succeeds := by simp [calls, succeeds_tickCall]
  refine (recent_event_coalesces_iff liveSettings rfl calls (tickCall 0) hok).mpr (fun _ => ?_) ?_
  · rw [← Recency.mem_recent_iff]
    decide +kernel
  · rw [← Recency.mem_recent_iff]
    decide +kernel

theorem usedRecently_range_iff (n m : ℕ) :
    Recency.UsedRecently n ((List.range (m + 1)).map fun i => (tickCall i).key) (tickCall 0).key ↔
      m < n := by
  have hinj : Function.Injective fun i => (tickCall (i + 1)).key := fun i j h =>
    Nat.succ_injective (key_tickCall_injective h)
  have hnot : (tickCall 0).key ∉ (List.range m).map fun i => (tickCall (i + 1)).key := by
    intro hmem
    obtain ⟨i, -, hi⟩ := List.mem_map.mp hmem
    exact absurd (key_tickCall_injective hi) (Nat.succ_ne_zero i)
  have hrange : (List.range (m + 1)).map (fun i => (tickCall i).key) =
      [] ++ (tickCall 0).key :: (List.range m).map fun i => (tickCall (i + 1)).key := by
    rw [List.range_succ_eq_map, List.map_cons, List.map_map]
    rfl
  rw [hrange, ← Recency.mem_recent_iff, Recency.mem_recent_append_cons_iff [] hnot,
    Recency.eraseDups_eq_self (List.nodup_range.map hinj), List.length_map, List.length_range]

/-- As many events as the cache has room for, the first of them again, and one more event. -/
def tickCalls : List EventCall :=
  (List.range 1024).map tickCall ++ [tickCall 0] ++ [tickCall 1024]

theorem succeeds_of_mem_tickCalls {c : EventCall} (h : c ∈ tickCalls ++ [tickCall 0]) :
    c.Succeeds := by
  simp only [tickCalls, List.mem_append, List.mem_map, List.mem_singleton] at h
  obtain ((⟨i, -, rfl⟩ | rfl) | rfl) | rfl := h
  · exact succeeds_tickCall i
  · exact succeeds_tickCall 0
  · exact succeeds_tickCall 1024
  · exact succeeds_tickCall 0

/-- The repetition of the first event creates nothing, and the last event evicts it. -/
theorem createdKeys_tickCalls :
    createdKeys (recordEvents liveSettings tickCalls).requests =
      (List.range (1024 + 1)).map fun i => (tickCall i).key := by
  let first := (List.range 1024).map tickCall
  have hok : ∀ c ∈ first ++ [tickCall 0], c.Succeeds := fun c hc =>
    succeeds_of_mem_tickCalls (List.mem_append_left _ (List.mem_append_left _ hc))
  have hok' : ∀ c ∈ first, c.Succeeds := fun c hc => hok c (List.mem_append_left _ hc)
  have hkeys : first.map EventCall.key = (List.range 1024).map fun i => (tickCall i).key :=
    List.map_map
  have hfirst : createdKeys (recordEvents liveSettings first).requests =
      (List.range 1024).map fun i => (tickCall i).key := by
    rw [createdKeys_recordEvents_of_nodup rfl hok', hkeys]
    rw [hkeys]
    exact List.nodup_range.map key_tickCall_injective
  have hagain : createdKeys (recordEvents liveSettings (first ++ [tickCall 0])).requests =
      (List.range 1024).map fun i => (tickCall i).key := by
    rw [recordEvents_append_singleton, ((cachesCreated_recordEvents rfl hok').createdKeys_recordEvent
      rfl (succeeds_tickCall 0)).1, hfirst]
    rw [hfirst]
    exact (usedRecently_range_iff eventCacheLen 1023).mpr (by decide)
  have hnew : ¬ Recency.UsedRecently eventCacheLen
      ((List.range 1024).map fun i => (tickCall i).key) (tickCall 1024).key := by
    rw [← Recency.mem_recent_iff]
    intro hmem
    obtain ⟨i, hi, heq⟩ := List.mem_map.mp (Recency.mem_of_mem_recent hmem)
    obtain rfl := key_tickCall_injective heq
    exact absurd (List.mem_range.mp hi) (by decide)
  rw [tickCalls, recordEvents_append_singleton,
    ((cachesCreated_recordEvents rfl hok).createdKeys_recordEvent rfl
      (succeeds_tickCall 1024)).2 (hagain ▸ hnew), hagain, @List.range_succ 1024, List.map_append,
    List.map_singleton]

/-- The first event was recorded again a moment ago, and yet its next call creates a new Event. -/
theorem recent_event_recreated :
    (∀ c ∈ tickCalls ++ [tickCall 0], c.Succeeds) ∧
    Recency.UsedRecently eventCacheLen (tickCalls.map EventCall.key) (tickCall 0).key ∧
    ¬ Coalesces liveSettings (recordEvents liveSettings tickCalls) (tickCall 0) ∧
    Creates liveSettings (recordEvents liveSettings tickCalls) (tickCall 0) := by
  have h := @cachesCreated_recordEvents liveSettings rfl tickCalls fun c hc =>
    succeeds_of_mem_tickCalls (List.mem_append_left _ hc)
  have hnot : ¬ Recency.UsedRecently eventCacheLen
      (createdKeys (recordEvents liveSettings tickCalls).requests) (tickCall 0).key := by
    rw [createdKeys_tickCalls, usedRecently_range_iff]
    decide
  have hne : (tickCall 0).key ≠ (tickCall 1024).key := fun heq =>
    absurd (key_tickCall_injective heq) (by decide)
  refine ⟨fun c hc => succeeds_of_mem_tickCalls hc, ?_, ?_, ?_⟩
  · have hkeys : tickCalls.map EventCall.key =
        ((List.range 1024).map tickCall).map EventCall.key ++ (tickCall 0).key ::
          [(tickCall 1024).key] := by
      rw [tickCalls, List.map_append, List.map_append, List.append_assoc]
      rfl
    rw [hkeys, ← Recency.mem_recent_iff,
      Recency.mem_recent_append_cons_iff _ (by simpa using hne),
      Recency.eraseDups_eq_self (List.nodup_singleton _)]
    decide
  · rwa [h.coalesces_iff rfl (succeeds_tickCall 0)]
  · rwa [h.creates_iff rfl (succeeds_tickCall 0)]

end EventRecorder

end SvcLbMux
