import SvcLbMux.DebugEvents
import SvcLbMux.DebugState
import SvcLbMux.Library.History

namespace SvcLbMux

open Py

/-! ## Clearing the state -/

def muxChannelKeys (muxKey : String × String) (st : DebugState) : List (String × String) :=
  (st.channelServices.entries.filter fun e => e.2.mux = muxKey).map Prod.fst

/-- `delete_mux_state`. -/
def deleteMuxState (muxKey : String × String) (st : DebugState) : DebugState :=
  let st :=
    { st with
      muxServices := st.muxServices.erase muxKey
      endpoints := st.endpoints.erase muxKey }
  removeChannels (muxChannelKeys muxKey st) st

/-- There is no entry for the mux, none for a channel of the mux, and no Endpoints of the mux. -/
structure MuxAbsent (muxKey : String × String) (st : DebugState) : Prop where
  mux : st.muxServices.get muxKey = none
  channels : ∀ key channel, st.channelServices.get key = some channel → channel.mux ≠ muxKey
  endpoints : st.endpoints.get muxKey = none

theorem muxAbsent_deleteMuxState (muxKey : String × String) (st : DebugState) :
    MuxAbsent muxKey (deleteMuxState muxKey st) := by
  refine ⟨?_, fun key channel hget hmux => ?_, ?_⟩
  · change (st.muxServices.erase muxKey).get muxKey = none
    rw [Dict.get_erase, if_pos rfl]
  · change (st.channelServices.filterKeys _).get key = some channel at hget
    rw [Dict.get_filterKeys] at hget
    split_ifs at hget with hkey
    refine of_decide_eq_true hkey (List.mem_map.mpr ⟨(key, channel), ?_, rfl⟩)
    exact List.mem_filter.mpr ⟨(Dict.get_eq_some_iff _ _ _).mp hget, decide_eq_true hmux⟩
  · change ((st.endpoints.erase muxKey).filterKeys _).get muxKey = none
    rw [Dict.get_filterKeys, Dict.get_erase, if_pos rfl]
    split_ifs <;> rfl

section Update

variable {cfg : Config} {memoEndpoints : MemoEndpoints} {sources : DebugSources}
  {muxKey : String × String}

theorem muxServices_updateEndpointState (key : String × String) (st : DebugState) :
    (updateEndpointState memoEndpoints sources key st).muxServices = st.muxServices := by
  unfold updateEndpointState
  cases memoEndpoints.get key <;> rfl

theorem muxServices_updateChannelStates (mux : DebugMux) (channels : List Channel)
    (st : DebugState) :
    (updateChannelStates cfg memoEndpoints sources muxKey mux channels st).2.muxServices =
      st.muxServices := by
  induction channels generalizing st with
  | nil => rfl
  | cons channel channels ih =>
    rw [updateChannelStates]
    cases debugChannel cfg sources muxKey mux channel with
    | error e => exact muxServices_updateEndpointState channel.key st
    | ok state =>
      rw [ih]
      exact muxServices_updateEndpointState channel.key st

theorem muxServices_updateMuxChannels (mux : DebugMux) (channels : List Channel)
    (st : DebugState) :
    (updateMuxChannels cfg memoEndpoints sources muxKey mux channels st).2.muxServices =
      st.muxServices := by
  have h := @muxServices_updateChannelStates cfg memoEndpoints sources muxKey mux channels st
  unfold updateMuxChannels
  split <;> rename_i hrun <;> rw [hrun] at h <;> exact h

/-- The update of a mux leaves an entry for it, also where it raises. -/
theorem get_muxServices_updateMuxState (mux : MuxService) (channels : List Channel)
    (st : DebugState) :
    ∃ entry, (updateMuxState cfg memoEndpoints sources muxKey mux channels st).2.muxServices.get
      muxKey = some entry := by
  rw [updateMuxState, muxServices_updateMuxChannels, muxServices_updateEndpointState]
  exact ⟨_, Dict.get_set_self _ _ _⟩

theorem not_muxAbsent_updateMuxState (mux : MuxService) (channels : List Channel)
    (st : DebugState) :
    ¬ MuxAbsent muxKey (updateMuxState cfg memoEndpoints sources muxKey mux channels st).2 := by
  intro habsent
  obtain ⟨entry, hentry⟩ :=
    @get_muxServices_updateMuxState cfg memoEndpoints sources muxKey mux channels st
  rw [habsent.mux] at hentry
  cases hentry

end Update

/-! ## The daemon and the handler -/

namespace MuxDeletion

open History

/-- The statement that the daemon takes next. `raised` is between two attempts of it. -/
inductive DaemonPhase where
  | start
  | firstRefresh
  | firstUpdate
  | head
  | wait
  | refresh
  | update
  | reconcile
  | leave
  | raised
  | exited
deriving DecidableEq

/-- How far `mux_deletion` has come. -/
inductive DeletionPhase where
  | pending
  | endpointsPopped
  | queuePopped
  | cleared
  | recorded
deriving DecidableEq

structure Controller where
  daemon : DaemonPhase
  stopped : Bool
  deletion : DeletionPhase
  memoEndpoints : MemoEndpoints
  hasQueue : Bool
  store : DebugState
  events : List DebugEvent

/-- A statement of the daemon or of the handler, or what kopf and the other handlers do between
them. An update has what the daemon then knows of the mux, and the channels that the index has. -/
inductive Action where
  | daemonStarts
  | daemonRefreshes
  | daemonUpdates (mux : MuxService) (channels : List Channel) (sources : DebugSources)
  | daemonTestsStopped
  | daemonWakes
  | daemonRecords (call : DebugRecord)
  | daemonReconciles
  | daemonLeaves
  | daemonRaises
  | kopfRetries
  | kopfStops
  | deletionPopsEndpoints
  | deletionPopsQueue
  | deletionClears
  | deletionRecords (now : String)
  | memoChanges (memoEndpoints : MemoEndpoints) (hasQueue : Bool)

section Steps

variable (cfg : Config) (muxKey : String × String)

/-- Both updates of the daemon: the one before its loop and the one in it. -/
def daemonUpdate (mux : MuxService) (channels : List Channel) (sources : DebugSources)
    (s : Controller) : Controller :=
  match updateMuxState cfg s.memoEndpoints { sources with hasQueue := s.hasQueue } muxKey mux
      channels s.store with
  | (.error _, store) => { s with daemon := .raised, store := store }
  | (.ok (), store) =>
    { s with
      daemon := if s.daemon = .firstUpdate then .head else .reconcile
      store := store }

def muxDeleted (now : String) : DebugRecord :=
  ⟨now, "Normal", muxKey.1 ++ "/" ++ muxKey.2, "Mux deleted"⟩

/-- An action that does not come next for its party leaves everything as it is. -/
def step (s : Controller) : Action → Controller
  | .daemonStarts =>
    if s.daemon = .start then { s with daemon := .firstRefresh, hasQueue := true } else s
  | .daemonRefreshes =>
    if s.daemon = .firstRefresh then { s with daemon := .firstUpdate }
    else if s.daemon = .refresh then { s with daemon := .update }
    else s
  | .daemonUpdates mux channels sources =>
    if s.daemon = .firstUpdate ∨ s.daemon = .update then
      daemonUpdate cfg muxKey mux channels sources s
    else s
  -- The only place where `stopped` is read; the wait and the update come after it.
  | .daemonTestsStopped =>
    if s.daemon = .head then { s with daemon := if s.stopped then .leave else .wait } else s
  | .daemonWakes => if s.daemon = .wait then { s with daemon := .refresh } else s
  | .daemonRecords call =>
    if s.daemon = .reconcile then { s with events := DebugStateStore.recordEvent s.events call }
    else s
  | .daemonReconciles => if s.daemon = .reconcile then { s with daemon := .head } else s
  | .daemonLeaves =>
    if s.daemon = .leave then { s with daemon := .exited, hasQueue := false } else s
  | .daemonRaises =>
    if s.daemon = .firstRefresh ∨ s.daemon = .refresh ∨ s.daemon = .reconcile then
      { s with daemon := .raised }
    else s
  -- kopf runs a daemon that raised again, unless it has told it to stop.
  | .kopfRetries =>
    if s.daemon = .raised then { s with daemon := if s.stopped then .exited else .start } else s
  | .kopfStops => { s with stopped := true }
  | .deletionPopsEndpoints =>
    if s.deletion = .pending then
      { s with deletion := .endpointsPopped, memoEndpoints := s.memoEndpoints.erase muxKey }
    else s
  | .deletionPopsQueue =>
    if s.deletion = .endpointsPopped then { s with deletion := .queuePopped, hasQueue := false }
    else s
  | .deletionClears =>
    if s.deletion = .queuePopped then
      { s with deletion := .cleared, store := deleteMuxState muxKey s.store }
    else s
  | .deletionRecords now =>
    if s.deletion = .cleared then
      { s with
        deletion := .recorded
        events := DebugStateStore.recordEvent s.events (muxDeleted muxKey now) }
    else s
  | .memoChanges memoEndpoints hasQueue =>
    { s with memoEndpoints := memoEndpoints, hasQueue := hasQueue }

/-- The controller after some actions. A list of them is any interleaving of the two parties. -/
def run (s : Controller) (actions : List Action) : Controller :=
  actions.foldl (step cfg muxKey) s

end Steps

/-- The handler has executed `delete_mux_state`. -/
def Controller.Cleared (s : Controller) : Prop := s.deletion = .cleared ∨ s.deletion = .recorded

def Clears (s : Controller) (a : Action) : Prop := a = .deletionClears ∧ s.deletion = .queuePopped

/-- The action is an `update_mux_state` of the daemon. -/
def Updates (s : Controller) (a : Action) : Prop :=
  ∃ mux channels sources, a = .daemonUpdates mux channels sources ∧
    (s.daemon = .firstUpdate ∨ s.daemon = .update)

variable {cfg : Config} {muxKey : String × String}

theorem not_clears_of_ne {s : Controller} {a : Action} (h : a ≠ .deletionClears) : ¬ Clears s a :=
  fun hclears => h hclears.1

/-- What a step does to the state behind the debug API and to the progress of the handler. -/
theorem step_cases (s : Controller) (a : Action) :
    (Clears s a ∧ step cfg muxKey s a =
      { s with deletion := .cleared, store := deleteMuxState muxKey s.store }) ∨
    (∃ mux channels sources, Updates s a ∧ ¬ Clears s a ∧
      step cfg muxKey s a = daemonUpdate cfg muxKey mux channels sources s) ∨
    (¬ Updates s a ∧ ¬ Clears s a ∧ (step cfg muxKey s a).store = s.store ∧
      ((step cfg muxKey s a).Cleared ↔ s.Cleared)) := by
  cases a with
  | deletionClears =>
    by_cases hnext : s.deletion = .queuePopped
    · exact Or.inl ⟨⟨rfl, hnext⟩, if_pos hnext⟩
    · refine Or.inr (Or.inr ⟨?_, fun hclears => hnext hclears.2, ?_⟩)
      · rintro ⟨mux, channels, sources, h, -⟩
        cases h
      · rw [step, if_neg hnext]
        exact ⟨rfl, Iff.rfl⟩
  | daemonUpdates mux channels sources =>
    have hclears := @not_clears_of_ne s (.daemonUpdates mux channels sources) (by simp)
    by_cases hnext : s.daemon = .firstUpdate ∨ s.daemon = .update
    · exact Or.inr (Or.inl ⟨mux, channels, sources, ⟨mux, channels, sources, rfl, hnext⟩, hclears,
        if_pos hnext⟩)
    · refine Or.inr (Or.inr ⟨?_, hclears, ?_⟩)
      · rintro ⟨_, _, _, -, h⟩
        exact hnext h
      · rw [step, if_neg hnext]
        exact ⟨rfl, Iff.rfl⟩
  | _ =>
    refine Or.inr (Or.inr ⟨?_, not_clears_of_ne (by simp), ?_⟩)
    · rintro ⟨mux, channels, sources, h, -⟩
      cases h
    · simp only [step, Controller.Cleared]
      repeat' split
      all_goals simp_all

theorem deletion_daemonUpdate (mux : MuxService) (channels : List Channel)
    (sources : DebugSources) (s : Controller) :
    (daemonUpdate cfg muxKey mux channels sources s).deletion = s.deletion := by
  unfold daemonUpdate
  split <;> rfl

theorem store_daemonUpdate (mux : MuxService) (channels : List Channel) (sources : DebugSources)
    (s : Controller) :
    (daemonUpdate cfg muxKey mux channels sources s).store =
      (updateMuxState cfg s.memoEndpoints { sources with hasQueue := s.hasQueue } muxKey mux
        channels s.store).2 := by
  unfold daemonUpdate
  split <;> rename_i hupdate <;> rw [hupdate]

theorem cleared_step {s : Controller} (h : s.Cleared) (a : Action) :
    (step cfg muxKey s a).Cleared := by
  obtain ⟨-, hstep⟩ | ⟨mux, channels, sources, -, -, hstep⟩ | ⟨-, -, -, hdeletion⟩ :=
    @step_cases cfg muxKey s a
  · rw [hstep]
    exact Or.inl rfl
  · rw [hstep, Controller.Cleared, deletion_daemonUpdate]
    exact h
  · exact hdeletion.mpr h

theorem muxAbsent_run_iff (s : Controller) (hpending : s.deletion = .pending)
    (actions : List Action) (hcleared : (run cfg muxKey s actions).Cleared) :
    MuxAbsent muxKey (run cfg muxKey s actions).store ↔
      Since (step cfg muxKey) s actions Clears fun s a => ¬ Updates s a := by
  induction actions using List.reverseRecOn with
  | nil => simp [run, Controller.Cleared, hpending] at hcleared
  | append_singleton actions a ih =>
    rw [since_append_singleton]
    rw [run, List.foldl_concat] at hcleared ⊢
    change MuxAbsent muxKey (step cfg muxKey (run cfg muxKey s actions) a).store ↔
      Clears (run cfg muxKey s actions) a ∨ ¬ Updates (run cfg muxKey s actions) a ∧ _
    obtain ⟨hclears, hstep⟩ | ⟨mux, channels, sources, hupdates, hclears, hstep⟩ |
      ⟨hupdates, hclears, hstore, hdeletion⟩ :=
      @step_cases cfg muxKey (run cfg muxKey s actions) a
    · rw [hstep]
      exact iff_of_true (muxAbsent_deleteMuxState muxKey _) (Or.inl hclears)
    · rw [hstep, store_daemonUpdate]
      refine iff_of_false (not_muxAbsent_updateMuxState mux channels _) ?_
      rintro (h | ⟨h, -⟩)
      · exact hclears h
      · exact h hupdates
    · rw [hstore, ih (hdeletion.mp hcleared), or_iff_right hclears, and_iff_right hupdates]

/-- kopf has told the daemon to stop, and the daemon is past the update of its iteration. -/
def Settled (s : Controller) : Prop :=
  s.stopped = true ∧ (s.daemon = .head ∨ s.daemon = .reconcile ∨ s.daemon = .leave ∨
    s.daemon = .raised ∨ s.daemon = .exited)

theorem not_updates_of_settled {s : Controller} (h : Settled s) (a : Action) : ¬ Updates s a := by
  rintro ⟨mux, channels, sources, -, hupdates⟩
  obtain ⟨-, hdaemon⟩ := h
  rcases hupdates with hupdates | hupdates <;> simp [hupdates] at hdaemon

/-- A settled daemon stays so: it does not update again before it tests `stopped`, or is retried. -/
theorem settled_step {s : Controller} (h : Settled s) (a : Action) :
    Settled (step cfg muxKey s a) := by
  obtain ⟨hstopped, hdaemon⟩ := h
  cases a with
  | daemonUpdates mux channels sources =>
    rw [step, if_neg (by rintro (h | h) <;> simp [h] at hdaemon)]
    exact ⟨hstopped, hdaemon⟩
  | _ =>
    rcases hdaemon with h | h | h | h | h <;> simp only [step, h, hstopped, Settled] <;>
      repeat' split
    all_goals simp_all

/-- A mux is gone for good when the handler clears the state while its daemon is settled. -/
theorem muxAbsent_of_settled (s : Controller) (hpending : s.deletion = .pending)
    (before after : List Action) (hnext : (run cfg muxKey s before).deletion = .queuePopped)
    (hsettled : Settled (run cfg muxKey s before)) :
    MuxAbsent muxKey (run cfg muxKey s (before ++ .deletionClears :: after)).store := by
  have hstep : step cfg muxKey (run cfg muxKey s before) .deletionClears =
      { run cfg muxKey s before with
        deletion := .cleared
        store := deleteMuxState muxKey (run cfg muxKey s before).store } := if_pos hnext
  have hcleared : (run cfg muxKey s (before ++ .deletionClears :: after)).Cleared := by
    rw [run, List.foldl_append, List.foldl_cons]
    refine List.foldlRecOn after (step cfg muxKey) ?_ fun t ht a _ => cleared_step ht a
    change (step cfg muxKey (run cfg muxKey s before) .deletionClears).Cleared
    rw [hstep]
    exact Or.inl rfl
  rw [muxAbsent_run_iff s hpending _ hcleared]
  apply since_of_invariant Settled
  · exact ⟨rfl, hnext⟩
  · exact settled_step hsettled _
  · exact fun t a ht => settled_step ht a
  · exact fun t a ht => not_updates_of_settled ht a

/-- In every state after the clearing, also when the daemon has exited: nothing is left of the mux
if and only if the daemon has not updated the state since it was cleared. It has not if it was
settled at the clearing. -/
theorem deleted_mux_absent_iff (cfg : Config) (muxKey : String × String) (s : Controller)
    (hpending : s.deletion = .pending) (actions : List Action)
    (hcleared : (run cfg muxKey s actions).Cleared) :
    (MuxAbsent muxKey (run cfg muxKey s actions).store ↔
      Since (step cfg muxKey) s actions Clears fun s a => ¬ Updates s a) ∧
    ∀ before after, actions = before ++ .deletionClears :: after →
      (run cfg muxKey s before).deletion = .queuePopped → Settled (run cfg muxKey s before) →
      MuxAbsent muxKey (run cfg muxKey s actions).store := by
  refine ⟨muxAbsent_run_iff s hpending actions hcleared, ?_⟩
  rintro before after rfl hnext hsettled
  exact muxAbsent_of_settled s hpending before after hnext hsettled

def sampleStart : Controller :=
  ⟨.start, false, .pending, Dict.empty, true, DebugState.empty, []⟩

def sampleUpdate : Action :=
  .daemonUpdates (sampleMux [] []) [sampleChannel "web" "http" 80 []] sampleSources

/-- Up to the first wait of the daemon for its queue. -/
def sampleWait : List Action :=
  [.daemonStarts, .daemonRefreshes, sampleUpdate, .daemonTestsStopped]

def sampleDeletion : List Action :=
  [.kopfStops, .deletionPopsEndpoints, .deletionPopsQueue, .deletionClears, .deletionRecords "1"]

def sampleIteration : List Action := [.daemonWakes, .daemonRefreshes, sampleUpdate]

/-- The rest of an iteration, after which the daemon finds that it has been stopped. -/
def sampleRest : List Action := [.daemonReconciles, .daemonTestsStopped, .daemonLeaves]

/-- A deletion during the wait: the mux and its channel are back after the daemon has exited. -/
theorem deleted_mux_comes_back :
    let actions := sampleWait ++ sampleDeletion ++ sampleIteration ++ sampleRest
    let exited := run sampleConfig ("default", "mux") sampleStart actions
    exited.deletion = .recorded ∧ exited.daemon = .exited ∧
      exited.store.muxServices.keys = [("default", "mux")] ∧
      exited.store.channelServices.entries.map (fun e => (e.1, e.2.mux)) =
        [(("default", "web"), ("default", "mux"))] ∧
      ¬ MuxAbsent ("default", "mux") exited.store := by
  intro actions exited
  have hmux : exited.store.muxServices.get ("default", "mux") ≠ none := by decide +kernel
  exact ⟨by decide +kernel, by decide +kernel, by decide +kernel, by decide +kernel,
    fun habsent => hmux habsent.mux⟩

def sampleSettled : List Action := sampleWait ++ sampleIteration ++ sampleDeletion ++ sampleRest

theorem deleted_mux_absent_settled :
    (run sampleConfig ("default", "mux") sampleStart sampleSettled).daemon = .exited ∧
    MuxAbsent ("default", "mux")
      (run sampleConfig ("default", "mux") sampleStart sampleSettled).store := by
  refine ⟨by decide +kernel, (deleted_mux_absent_iff sampleConfig ("default", "mux") sampleStart rfl
    sampleSettled (by unfold Controller.Cleared; decide +kernel)).2
    (sampleWait ++ sampleIteration ++ [.kopfStops, .deletionPopsEndpoints, .deletionPopsQueue])
    (.deletionRecords "1" :: sampleRest) rfl (by decide +kernel) ?_⟩
  unfold Settled
  decide +kernel

end MuxDeletion

end SvcLbMux
