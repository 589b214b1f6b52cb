import SvcLbMux.Config
import SvcLbMux.Library.Recency

namespace SvcLbMux

open Py

def maxDebugEvents : ℕ := 100

def maxEventMessageLength : ℕ := 2000

def truncateEventMessage (message : String) : String :=
  if message.toList.length ≤ maxEventMessageLength then message
  else
    let omitted := message.toList.length - maxEventMessageLength
    String.ofList (message.toList.take maxEventMessageLength) ++ "... [truncated " ++
      str omitted ++ " chars]"

structure DebugEvent where
  timestamp : String
  firstTimestamp : String
  lastTimestamp : String
  count : ℕ
  type : String
  resource : String
  message : String
deriving DecidableEq

/-- A call of `record_event`, with the time that it reads from the clock. -/
structure DebugRecord where
  now : String
  eventType : String
  resource : String
  message : String

abbrev EventTriple := String × String × String

def DebugEvent.triple (event : DebugEvent) : EventTriple :=
  (event.type, event.resource, event.message)

def DebugRecord.triple (call : DebugRecord) : EventTriple :=
  (call.eventType, call.resource, truncateEventMessage call.message)

namespace DebugStateStore

/-- `deque.appendleft`, the length being bounded. -/
def appendleft (events : List DebugEvent) (event : DebugEvent) : List DebugEvent :=
  (event :: events).take maxDebugEvents

def recordEvent (events : List DebugEvent) (call : DebugRecord) : List DebugEvent :=
  let message := truncateEventMessage call.message
  match events.find? fun existing => existing.type = call.eventType &&
      (existing.resource = call.resource && existing.message = message) with
  | some existing =>
    appendleft (events.erase existing)
      { existing with
        timestamp := call.now
        lastTimestamp := call.now
        count := existing.count + 1 }
  | none =>
    appendleft events
      { timestamp := call.now
        firstTimestamp := call.now
        lastTimestamp := call.now
        count := 1
        type := call.eventType
        resource := call.resource
        message := message }

/-- The events of a store after calls of `record_event`. -/
def recordEvents (calls : List DebugRecord) : List DebugEvent := calls.foldl recordEvent []

/-! ## The store as a list of recent entries -/

def newEvent (call : DebugRecord) : DebugEvent where
  timestamp := call.now
  firstTimestamp := call.now
  lastTimestamp := call.now
  count := 1
  type := call.eventType
  resource := call.resource
  message := truncateEventMessage call.message

def repeatedEvent (event : DebugEvent) (call : DebugRecord) : DebugEvent :=
  { event with timestamp := call.now, lastTimestamp := call.now, count := event.count + 1 }

theorem recordEvent_eq_record (events : List DebugEvent) (call : DebugRecord) :
    recordEvent events call = Recency.record maxDebugEvents DebugRecord.triple DebugEvent.triple
      newEvent repeatedEvent events call := by
  have hkey : (fun existing : DebugEvent => decide (existing.type = call.eventType) &&
      (decide (existing.resource = call.resource) &&
        decide (existing.message = truncateEventMessage call.message))) =
      fun existing => decide (existing.triple = call.triple) := by
    funext existing
    simp only [DebugEvent.triple, DebugRecord.triple, Prod.mk.injEq, Bool.decide_and]
  unfold recordEvent Recency.record
  dsimp only
  rw [hkey]
  cases events.find? fun existing => decide (existing.triple = call.triple) with
  | some existing => rfl
  | none => rfl

theorem tracks_recordEvents (calls : List DebugRecord) :
    Recency.Tracks maxDebugEvents DebugRecord.triple DebugEvent.triple newEvent repeatedEvent calls
      (recordEvents calls) := by
  have hrecord : recordEvent = Recency.record maxDebugEvents DebugRecord.triple DebugEvent.triple
      newEvent repeatedEvent := by
    funext events call
    exact recordEvent_eq_record events call
  rw [recordEvents, hrecord]
  apply Recency.tracks_foldl
  · intro call
    rfl
  · intro event call
    rfl

theorem triples_recordEvents (calls : List DebugRecord) :
    (recordEvents calls).map DebugEvent.triple =
      Recency.recent maxDebugEvents (calls.map DebugRecord.triple) :=
  (tracks_recordEvents calls).keys

theorem count_foldl_repeatedEvent (calls : List DebugRecord) (event : DebugEvent) :
    (calls.foldl repeatedEvent event).count = event.count + calls.length := by
  induction calls generalizing event with
  | nil => rfl
  | cons call calls ih =>
    rw [List.foldl_cons, ih, List.length_cons, Nat.add_comm calls.length, ← Nat.add_assoc]
    rfl

theorem firstTimestamp_foldl_repeatedEvent (calls : List DebugRecord) (event : DebugEvent) :
    (calls.foldl repeatedEvent event).firstTimestamp = event.firstTimestamp := by
  induction calls generalizing event with
  | nil => rfl
  | cons call calls ih => exact ih _

def Listed (events : List DebugEvent) (triple : EventTriple) : Prop :=
  triple ∈ events.map DebugEvent.triple

/-- The event came into the list by a call whose triple was not listed, the triple has been listed
since, and the event has counted the calls for the triple since then. -/
def CountedSinceEntry (calls : List DebugRecord) (event : DebugEvent) : Prop :=
  ∃ before call after, calls = before ++ call :: after ∧ call.triple = event.triple ∧
    ¬ Listed (recordEvents before) event.triple ∧
    (∀ mid rest, after = mid ++ rest → Listed (recordEvents (before ++ call :: mid)) event.triple) ∧
    event.count = 1 + (after.map DebugRecord.triple).count event.triple ∧
    event.firstTimestamp = call.now

theorem countedSinceEntry_of_mem {calls : List DebugRecord} {event : DebugEvent}
    (h : event ∈ recordEvents calls) : CountedSinceEntry calls event := by
  obtain ⟨before, call, after, hcalls, hkey, hnew, hmid, hevent⟩ :=
    (tracks_recordEvents calls).since event h
  refine ⟨before, call, after, hcalls, hkey, ?_, fun mid rest heq => ?_, ?_, ?_⟩
  · rwa [Listed, triples_recordEvents]
  · rw [Listed, triples_recordEvents]
    exact hmid mid rest heq
  · have hcount := congrArg DebugEvent.count hevent
    rw [count_foldl_repeatedEvent] at hcount
    rw [hcount, List.count_eq_countP, List.countP_map, List.countP_eq_length_filter]
    congr 2
    refine List.filter_congr fun call _ => ?_
    simp only [Function.comp_apply, beq_eq_decide]
  · have hfirst := congrArg DebugEvent.firstTimestamp hevent
    rw [firstTimestamp_foldl_repeatedEvent] at hfirst
    exact hfirst

/-- After any calls the events are the last distinct ones, the last one first, each once and with
the number of its calls since it came into the list. -/
theorem recordEvents_recent (calls : List DebugRecord) :
    (recordEvents calls).map DebugEvent.triple =
        Recency.recent maxDebugEvents (calls.map DebugRecord.triple) ∧
      ((recordEvents calls).map DebugEvent.triple).Nodup ∧
      ∀ event ∈ recordEvents calls, CountedSinceEntry calls event := by
  refine ⟨triples_recordEvents calls, ?_, fun event h => countedSinceEntry_of_mem h⟩
  rw [triples_recordEvents]
  exact Recency.nodup_recent _ _

example :
    (recordEvents [⟨"1", "Normal", "default/mux", "updated"⟩, ⟨"2", "Warning", "default/mux", "failed"⟩,
      ⟨"3", "Normal", "default/mux", "updated"⟩]).map (fun event => (event.message, event.count)) =
      [("updated", 2), ("failed", 1)] := by decide +kernel

end DebugStateStore

end SvcLbMux
