import SvcLbMux.EventCache

namespace SvcLbMux

open Py

def EventObject.path (event : EventObject) : String × String := (event.namespace_, event.name)

namespace EventRecorder

variable (settings : EventSettings)

/-- The place that an Event of the call has, if the call creates one. -/
def eventPath (call : EventCall) : String × String := (newEvent settings call).path

/-- A request that raises is not carried out. A call whose last attempt to create is successful is
taken to create the Event with each attempt, since they are all the same. -/
def carriesOut (call : EventCall) : ApiRequest → Bool
  | .create _ => call.createFailures < 3
  | .patch _ _ _ => call.patchOutcome = .succeeds

def carryOut (events : Dict (String × String) EventObject) :
    ApiRequest → Dict (String × String) EventObject
  | .create event => events.set event.path event
  | .patch event count lastTimestamp => events.modify event.path fun found =>
    { found with
      count := some count
      lastTimestamp := lastTimestamp }

/-- The Events that were created, also those that have expired, as they were last. The calls that
did not get a request carried out are set apart. -/
structure EventLedger where
  recorder : EventRecorder
  events : Dict (String × String) EventObject
  failed : List EventCall

namespace EventLedger

def empty : EventLedger := ⟨EventRecorder.empty, Dict.empty, []⟩

def record (ledger : EventLedger) (call : EventCall) : EventLedger :=
  let recorder := recordEvent settings ledger.recorder call
  let requests := (recorder.requests.drop ledger.recorder.requests.length).filter (carriesOut call)
  ⟨recorder, requests.foldl carryOut ledger.events,
    if requests = [] then ledger.failed ++ [call] else ledger.failed⟩

def after (calls : List EventCall) : EventLedger := calls.foldl (record settings) empty

/-- The occurrences that the Events of an identity count; an Event without a count has one. -/
def counted (ledger : EventLedger) (key : EventKey) : ℕ :=
  ledger.events.total fun event => if event.key = key then event.count.getD 1 else 0

/-! ## What a call does -/

variable {settings} {ledger : EventLedger} {call : EventCall}

theorem foldl_replicate_create (events : Dict (String × String) EventObject) (event : EventObject)
    (n : ℕ) : (List.replicate (n + 1) (ApiRequest.create event)).foldl carryOut events =
      events.set event.path event := by
  induction n with
  | zero => rfl
  | succ n ih =>
    rw [List.replicate_succ', List.foldl_append, ih]
    exact Dict.set_eq_self (Dict.get_set_self _ _ _)

def patched (event : EventObject) (call : EventCall) : EventObject :=
  { event with
    count := some (event.count.getD 1 + 1)
    lastTimestamp := call.timestamp }

/-- The call counts on the Event that is cached for its identity. -/
def Patches (ledger : EventLedger) (call : EventCall) (after : EventLedger) : Prop :=
  ∃ event, ledger.recorder.cache.get call.key = some event ∧
    after.recorder.cache = ledger.recorder.cache.set call.key (patched event call) ∧
    after.events = ledger.events.modify event.path (fun found =>
      { found with
        count := some (event.count.getD 1 + 1)
        lastTimestamp := call.timestamp }) ∧
    after.failed = ledger.failed

def Creates (settings : EventSettings) (ledger : EventLedger) (call : EventCall)
    (after : EventLedger) : Prop :=
  after.recorder.cache =
      CacheDict.setItem eventCacheLen ledger.recorder.cache call.key (newEvent settings call) ∧
    after.events = ledger.events.set (eventPath settings call) (newEvent settings call) ∧
    after.failed = ledger.failed

def Fails (settings : EventSettings) (ledger : EventLedger) (call : EventCall)
    (after : EventLedger) : Prop :=
  (settings.dryrunMode = true ∨ 3 ≤ call.createFailures) ∧
    after.recorder.cache = ledger.recorder.cache ∧ after.events = ledger.events ∧
    after.failed = ledger.failed ++ [call]

theorem record_of_requests {requests : List ApiRequest}
    (h : (recordEvent settings ledger.recorder call).requests =
      ledger.recorder.requests ++ requests) :
    ledger.record settings call = ⟨recordEvent settings ledger.recorder call,
      (requests.filter (carriesOut call)).foldl carryOut ledger.events,
      if requests.filter (carriesOut call) = [] then ledger.failed ++ [call]
      else ledger.failed⟩ := by
  unfold record
  dsimp only
  rw [h, List.drop_left]

/-- A call that comes to create an Event, after a patch that raised or without one. -/
theorem record_createEvent {before : List ApiRequest}
    (hbefore : before.filter (carriesOut call) = [])
    (h : recordEvent settings ledger.recorder call = createEvent settings
      { ledger.recorder with requests := ledger.recorder.requests ++ before } call) :
    Creates settings ledger call (ledger.record settings call) ∨
      Fails settings ledger call (ledger.record settings call) := by
  have hrequests : (recordEvent settings ledger.recorder call).requests =
      ledger.recorder.requests ++ (before ++
        List.replicate (min (call.createFailures + 1) 3) (.create (newEvent settings call))) := by
    rw [h]
    unfold createEvent
    dsimp only
    split_ifs <;> simp
  rw [record_of_requests hrequests, List.filter_append, hbefore, List.nil_append, h]
  unfold createEvent
  dsimp only
  by_cases hfailures : call.createFailures < 3
  · have hcarried : carriesOut call (.create (newEvent settings call)) = true :=
      decide_eq_true hfailures
    rw [if_pos hfailures, List.filter_replicate_of_pos hcarried, Nat.min_eq_left (by omega),
      foldl_replicate_create, if_neg (by simp)]
    exact Or.inl ⟨rfl, rfl, rfl⟩
  · have hdropped : ¬ carriesOut call (.create (newEvent settings call)) = true := by
      simpa [carriesOut] using hfailures
    rw [if_neg hfailures, List.filter_replicate_of_neg hdropped, if_pos rfl]
    exact Or.inr ⟨Or.inr (by omega), rfl, rfl, rfl⟩

theorem record_cases (ledger : EventLedger) (call : EventCall) :
    Patches ledger call (ledger.record settings call) ∨
      Creates settings ledger call (ledger.record settings call) ∨
        Fails settings ledger call (ledger.record settings call) := by
  have hrecord : recordEvent settings ledger.recorder call = _ := rfl
  conv_rhs at hrecord => unfold recordEvent
  cases hdryrun : settings.dryrunMode with
  | true =>
    refine Or.inr (Or.inr ?_)
    have hdebug : recordEvent settings ledger.recorder call =
        recordDebugEvent ledger.recorder call := by
      rw [hrecord, hdryrun]
      cases ledger.recorder.cache.get call.key <;> rfl
    have hrequests : (recordEvent settings ledger.recorder call).requests =
        ledger.recorder.requests ++ [] := by
      rw [hdebug, List.append_nil]
      rfl
    rw [record_of_requests hrequests, hdebug]
    exact ⟨Or.inl hdryrun, rfl, rfl, rfl⟩
  | false =>
    rw [hdryrun] at hrecord
    cases hget : ledger.recorder.cache.get call.key with
    | none =>
      rw [hget] at hrecord
      refine Or.inr (record_createEvent List.filter_nil ?_)
      rw [hrecord, List.append_nil]
      rfl
    | some event =>
      rw [hget] at hrecord
      cases hpatch : call.patchOutcome with
      | succeeds =>
        rw [hpatch] at hrecord
        refine Or.inl ⟨event, hget, ?_⟩
        have hrequests : (recordEvent settings ledger.recorder call).requests =
            ledger.recorder.requests ++
              [.patch event (event.count.getD 1 + 1) call.timestamp] := by
          rw [hrecord]
          rfl
        rw [record_of_requests hrequests, hrecord,
          List.filter_cons_of_pos (by simp [carriesOut, hpatch])]
        exact ⟨rfl, rfl, rfl⟩
      | notFound =>
        rw [hpatch] at hrecord
        refine Or.inr (record_createEvent ?_ hrecord)
        simp [carriesOut, hpatch]
      | fails =>
        rw [hpatch] at hrecord
        refine Or.inr (record_createEvent ?_ hrecord)
        simp [carriesOut, hpatch]

/-! ## The cache and the server agree -/

/-- Each cached Event is on the ledger as it is cached, under its identity. The Events are those of
calls made so far. -/
structure Tallied (settings : EventSettings) (calls : List EventCall) (ledger : EventLedger) :
    Prop where
  filed : ∀ key event, ledger.recorder.cache.get key = some event →
    event.key = key ∧ ledger.events.get event.path = some event
  known : ∀ path ∈ ledger.events.keys, path ∈ calls.map (eventPath settings)

variable {calls : List EventCall}

theorem events_of_patches {after : EventLedger} (h : Tallied settings calls ledger)
    (hpatches : Patches ledger call after) : ∃ event, event.key = call.key ∧
      ledger.events.get event.path = some event ∧
      after.recorder.cache = ledger.recorder.cache.set call.key (patched event call) ∧
      after.events = ledger.events.set event.path (patched event call) ∧
      after.failed = ledger.failed := by
  obtain ⟨event, hget, hcache, hevents, hfailed⟩ := hpatches
  obtain ⟨hkey, hfiled⟩ := h.filed call.key event hget
  refine ⟨event, hkey, hfiled, hcache, ?_, hfailed⟩
  rw [hevents, Dict.modify, hfiled]
  rfl

theorem tallied_record (h : Tallied settings calls ledger)
    (hfresh : eventPath settings call ∉ calls.map (eventPath settings)) :
    Tallied settings (calls ++ [call]) (ledger.record settings call) := by
  have hknown : ∀ path ∈ ledger.events.keys, path ∈ (calls ++ [call]).map (eventPath settings) := by
    intro path hpath
    rw [List.map_append]
    exact List.mem_append_left _ (h.known path hpath)
  obtain hpatches | ⟨hcache, hevents, -⟩ | ⟨-, hcache, hevents, -⟩ := record_cases ledger call
  · obtain ⟨event, hkey, hfiled, hcache, hevents, -⟩ := events_of_patches h hpatches
    constructor
    · intro key found hfound
      rw [hcache, Dict.get_set] at hfound
      rw [hevents]
      split_ifs at hfound with hsame
      · obtain rfl := Option.some.inj hfound
        exact ⟨hkey.trans hsame, Dict.get_set_self _ _ _⟩
      · obtain ⟨hfoundKey, hfoundFiled⟩ := h.filed key found hfound
        refine ⟨hfoundKey, ?_⟩
        rw [Dict.get_set_ne]
        · exact hfoundFiled
        · -- Two Events at one place would be one Event with two identities.
          intro hpath
          rw [← hpath, hfiled] at hfoundFiled
          rw [← Option.some.inj hfoundFiled] at hfoundKey
          exact hsame (hkey.symm.trans hfoundKey)
    · rw [hevents]
      intro path hpath
      obtain hold | rfl := Dict.mem_keys_set.mp hpath
      · exact hknown path hold
      · exact hknown _ ((Dict.mem_keys_iff _ _).mpr ⟨event, hfiled⟩)
  · constructor
    · intro key found hfound
      rw [hcache] at hfound
      rw [hevents]
      obtain ⟨rfl, rfl⟩ | hold := CacheDict.get_setItem hfound
      · exact ⟨rfl, Dict.get_set_self _ _ _⟩
      · obtain ⟨hfoundKey, hfoundFiled⟩ := h.filed key found hold
        refine ⟨hfoundKey, ?_⟩
        rw [Dict.get_set_ne]
        · exact hfoundFiled
        · intro hpath
          apply hfresh
          rw [hpath]
          exact h.known _ ((Dict.mem_keys_iff _ _).mpr ⟨found, hfoundFiled⟩)
    · rw [hevents]
      intro path hpath
      obtain hold | rfl := Dict.mem_keys_set.mp hpath
      · exact hknown path hold
      · simp
  · constructor
    · rw [hcache, hevents]
      exact h.filed
    · rw [hevents]
      exact hknown

theorem counted_record (h : Tallied settings calls ledger)
    (hfresh : eventPath settings call ∉ calls.map (eventPath settings)) (key : EventKey) :
    (ledger.record settings call).counted key +
        ((ledger.record settings call).failed.map EventCall.key).count key =
      ledger.counted key + (ledger.failed.map EventCall.key).count key +
        if call.key = key then 1 else 0 := by
  obtain hpatches | ⟨-, hevents, hfailed⟩ | ⟨-, -, hevents, hfailed⟩ := record_cases ledger call
  · obtain ⟨event, hkey, hfiled, -, hevents, hfailed⟩ := events_of_patches h hpatches
    have hsum := Dict.total_set_of_get hfiled (patched event call) fun event =>
      if event.key = key then event.count.getD 1 else 0
    have hpatched : (patched event call).key = call.key := hkey
    rw [hpatched, hkey] at hsum
    unfold counted
    rw [hevents, hfailed]
    by_cases hsame : call.key = key
    · have hcount : (patched event call).count.getD 1 = event.count.getD 1 + 1 := rfl
      rw [if_pos hsame, if_pos hsame, hcount] at hsum
      rw [if_pos hsame]
      omega
    · rw [if_neg hsame, if_neg hsame] at hsum
      rw [if_neg hsame]
      omega
  · have hnew : eventPath settings call ∉ ledger.events.keys := fun hmem =>
      hfresh (h.known _ hmem)
    unfold counted
    rw [hevents, hfailed, Dict.total_set_of_notMem hnew, key_newEvent]
    split_ifs
    · change _ + 1 + _ = _
      omega
    · omega
  · unfold counted
    rw [hevents, hfailed, List.map_append, List.count_append, List.map_singleton,
      List.count_singleton]
    simp only [beq_iff_eq]
    omega

theorem after_append_singleton (calls : List EventCall) (call : EventCall) :
    EventLedger.after settings (calls ++ [call]) = (EventLedger.after settings calls).record
      settings call := List.foldl_concat _ _ _ _

theorem tallied_after (hnames : (calls.map (eventPath settings)).Nodup) :
    Tallied settings calls (EventLedger.after settings calls) := by
  induction calls using List.reverseRecOn with
  | nil => exact ⟨fun key event h => (nomatch h), fun path h => (nomatch h)⟩
  | append_singleton calls call ih =>
    rw [List.map_append, List.map_singleton, List.nodup_append_comm, List.singleton_append,
      List.nodup_cons] at hnames
    rw [after_append_singleton]
    exact tallied_record (ih hnames.2) hnames.1

theorem counted_after (hnames : (calls.map (eventPath settings)).Nodup) (key : EventKey) :
    (EventLedger.after settings calls).counted key +
        ((EventLedger.after settings calls).failed.map EventCall.key).count key =
      (calls.map EventCall.key).count key := by
  induction calls using List.reverseRecOn with
  | nil => rfl
  | append_singleton calls call ih =>
    rw [List.map_append, List.map_singleton, List.nodup_append_comm, List.singleton_append,
      List.nodup_cons] at hnames
    rw [after_append_singleton, counted_record (tallied_after hnames.2) hnames.1, ih hnames.2,
      List.map_append, List.count_append, List.map_singleton, List.count_singleton]
    simp only [beq_iff_eq]

theorem of_mem_failed {c : EventCall} (h : c ∈ (EventLedger.after settings calls).failed) :
    c ∈ calls ∧ (settings.dryrunMode = true ∨ 3 ≤ c.createFailures) := by
  induction calls using List.reverseRecOn with
  | nil => exact nomatch h
  | append_singleton calls call ih =>
    rw [after_append_singleton] at h
    have hold : c ∈ (EventLedger.after settings calls).failed →
        c ∈ calls ++ [call] ∧ (settings.dryrunMode = true ∨ 3 ≤ c.createFailures) := fun hmem =>
      ⟨List.mem_append_left _ (ih hmem).1, (ih hmem).2⟩
    obtain ⟨-, -, -, -, hfailed⟩ | ⟨-, -, hfailed⟩ | ⟨hwhy, -, -, hfailed⟩ :=
      record_cases (EventLedger.after settings calls) call
    · exact hold (hfailed ▸ h)
    · exact hold (hfailed ▸ h)
    · rw [hfailed, List.mem_append, List.mem_singleton] at h
      obtain h | rfl := h
      · exact hold h
      · exact ⟨by simp, hwhy⟩

end EventLedger

/-- Whatever is evicted from the cache and whatever expires on the API server, and whichever requests
raise: each call is counted on one Event of its identity and no call is counted twice, but for the
calls whose three attempts to create an Event have all failed. -/
theorem events_count_occurrences (settings : EventSettings) (calls : List EventCall)
    (hnames : (calls.map (eventPath settings)).Nodup) :
    (∀ key, (EventLedger.after settings calls).counted key +
        ((EventLedger.after settings calls).failed.map EventCall.key).count key =
      (calls.map EventCall.key).count key) ∧
    (∀ call ∈ (EventLedger.after settings calls).failed,
      call ∈ calls ∧ (settings.dryrunMode = true ∨ 3 ≤ call.createFailures)) ∧
    ∀ key event, (EventLedger.after settings calls).recorder.cache.get key = some event →
      event.key = key ∧
        (EventLedger.after settings calls).events.get event.path = some event :=
  ⟨EventLedger.counted_after hnames, fun _ => EventLedger.of_mem_failed,
    (EventLedger.tallied_after hnames).filed⟩

/-- An Event is created, patched, found expired and created again; the API server is away at the end. -/
def sampleEventCalls : List EventCall :=
  [tickCall 0,
    { tickCall 0 with timestamp := "2026-01-01T00:00:01+00:00" },
    { tickCall 0 with
      timestamp := "2026-01-01T02:00:00+00:00"
      patchOutcome := .notFound },
    { tickCall 0 with
      timestamp := "2026-01-01T02:00:01+00:00"
      patchOutcome := .fails
      createFailures := 3 }]

theorem events_count_occurrences_sampleEventCalls :
    ((EventLedger.after liveSettings sampleEventCalls).events.entries.map fun e => e.2.count) =
      [some 2, none] ∧
    ∀ key, (EventLedger.after liveSettings sampleEventCalls).counted key +
        ((EventLedger.after liveSettings sampleEventCalls).failed.map EventCall.key).count key =
      (sampleEventCalls.map EventCall.key).count key :=
  ⟨by decide +kernel, (events_count_occurrences liveSettings sampleEventCalls (by decide)).1⟩

end EventRecorder

end SvcLbMux
