import SvcLbMux.Wakeups

namespace SvcLbMux

open Py Mailbox

variable {cfg : Config}

/-! ## The index after a run of the watch -/

def ServiceEvent.body : ServiceEvent → Option ServiceBody
  | .applied body => some body
  | .deleted _ => none

/-- The Service of a name as the watch showed it last, if it exists. -/
def lastShown (key : String × String) (events : List ServiceEvent) : Option ServiceBody :=
  events.foldl (fun last event => if event.key = key then event.body else last) none

/-- The channels of a mux are the Services whose class names it. -/
def RefersToMux (cfg : Config) (muxKey : String × String) (body : ServiceBody) : Prop :=
  isChannelService cfg body.toService = true ∧ muxOf cfg body = .ok muxKey

theorem muxChannelsEntry_eq_some_iff {body : ServiceBody}
    {entry : (String × String) × ServiceBody} : muxChannelsEntry cfg body = some entry ↔
      entry.2 = body ∧ RefersToMux cfg entry.1 body := by
  unfold muxChannelsEntry RefersToMux
  split_ifs with hchannel
  · cases hmux : muxOf cfg body with
    | ok mux =>
      simp only [Except.toOption, Option.map_some, Option.some.injEq, Except.ok.injEq]
      constructor
      · rintro rfl
        exact ⟨rfl, hchannel, rfl⟩
      · rintro ⟨hbody, -, hkey⟩
        exact Prod.ext hkey hbody.symm
    | error e => simp [Except.toOption]
  · simp [hchannel]

theorem get_muxChannels_observe (indexes : ChannelIndexes) (event : ServiceEvent)
    (key : String × String) : (indexes.observe cfg event).muxChannels.get key =
      if event.key = key then event.body.bind (muxChannelsEntry cfg)
      else indexes.muxChannels.get key := by
  cases event with
  | applied body =>
    unfold ChannelIndexes.observe
    cases hentry : muxChannelsEntry cfg body with
    | some entry => simp [ServiceEvent.key, ServiceEvent.body, hentry]
    | none => simp [ServiceEvent.key, ServiceEvent.body, hentry]
  | deleted k => exact Dict.get_erase _ _ _

def indexesOf (cfg : Config) (events : List ServiceEvent) : ChannelIndexes :=
  events.foldl (ChannelIndexes.observe cfg) ⟨Dict.empty, Dict.empty⟩

theorem get_muxChannels (events : List ServiceEvent) (key : String × String) :
    (indexesOf cfg events).muxChannels.get key =
      (lastShown key events).bind (muxChannelsEntry cfg) := by
  induction events using List.reverseRecOn with
  | nil => rfl
  | append_singleton events event ih =>
    rw [indexesOf, List.foldl_append, List.foldl_cons, List.foldl_nil, get_muxChannels_observe,
      lastShown, List.foldl_append, List.foldl_cons, List.foldl_nil]
    split_ifs
    · rfl
    · exact ih

theorem key_of_lastShown {key : String × String} {events : List ServiceEvent} {body : ServiceBody}
    (h : lastShown key events = some body) : body.key = key := by
  induction events using List.reverseRecOn with
  | nil => cases h
  | append_singleton events event ih =>
    rw [lastShown, List.foldl_append, List.foldl_cons, List.foldl_nil] at h
    split_ifs at h with hkey
    · cases event with
      | applied body' =>
        obtain rfl := Option.some.inj h
        exact hkey
      | deleted k => cases h
    · exact ih h

/-- The channels of a mux in the index are the existing ones that name it, each as it was shown
last. -/
theorem mem_channelsOf_iff (events : List ServiceEvent) (muxKey : String × String)
    (body : ServiceBody) : body ∈ (indexesOf cfg events).channelsOf muxKey ↔
      lastShown body.key events = some body ∧ RefersToMux cfg muxKey body := by
  unfold ChannelIndexes.channelsOf
  simp only [List.mem_map, List.mem_filter, decide_eq_true_eq]
  constructor
  · rintro ⟨⟨key, mux, body'⟩, ⟨hmem, hmux⟩, hbody⟩
    obtain rfl : mux = muxKey := hmux
    obtain rfl : body' = body := hbody
    rw [← Dict.get_eq_some_iff, get_muxChannels] at hmem
    obtain ⟨shown, hshown, hentry⟩ := Option.bind_eq_some_iff.mp hmem
    obtain ⟨rfl, hnames⟩ := muxChannelsEntry_eq_some_iff.mp hentry
    exact ⟨key_of_lastShown hshown ▸ hshown, hnames⟩
  · rintro ⟨hshown, hnames⟩
    refine ⟨(body.key, muxKey, body), ⟨?_, rfl⟩, rfl⟩
    rw [← Dict.get_eq_some_iff, get_muxChannels, hshown]
    exact muxChannelsEntry_eq_some_iff.mpr ⟨rfl, hnames⟩

theorem lastShown_append {key : String × String} {events events' : List ServiceEvent}
    (h : ∀ event ∈ events', event.key ≠ key) :
    lastShown key (events ++ events') = lastShown key events := by
  induction events' using List.reverseRecOn with
  | nil => rw [List.append_nil]
  | append_singleton events' event ih =>
    rw [← List.append_assoc, lastShown, List.foldl_append, List.foldl_cons, List.foldl_nil,
      if_neg (h event (by simp))]
    exact ih fun other hother => h other (List.mem_append_left _ hother)

namespace Notifications

def watchEvents (actions : List Action) : List ServiceEvent :=
  actions.filterMap fun action => match action with
    | .watch event => some event
    | _ => none

namespace Controller

variable {s s' : Controller} {actions : List Action}

theorem indexes_of_stepped {action : Action} (h : Stepped cfg s action s') :
    s'.indexes = (watchEvents [action]).foldl (ChannelIndexes.observe cfg) s.indexes := by
  cases h with
  | watch event => rfl
  | emitted hhandler => cases action <;> first | rfl | exact hhandler.elim
  | called hhandler hfresh => cases action <;> first | rfl | exact hhandler.elim
  | _ => rfl

theorem indexes_run (hrun : started.run cfg actions = some s) :
    s.indexes = indexesOf cfg (watchEvents actions) := by
  refine run_induction (P := fun mid m => m.indexes = indexesOf cfg (watchEvents mid)) rfl
    (fun mid action m m' _ hstep ih => ?_) actions s hrun
  rw [indexes_of_stepped hstep, ih, indexesOf, indexesOf, ← List.foldl_append, watchEvents,
    watchEvents, watchEvents, List.filterMap_append]

/-! ## After a notification -/

section Notified

variable {action : Action} {call queue : ℕ}

theorem contents_of_stepped (h : Stepped cfg s action s') (hne : s.muxQueues.contents queue ≠ []) :
    s'.muxQueues.contents queue ≠ [] ∨
      ∃ call d, action = .daemon call .get ∧ s.daemons.get call = some d ∧ d.queue = queue := by
  cases h with
  | watch event =>
    refine Or.inl ?_
    cases event with
    | applied body =>
      simp only [watch]
      split_ifs
      · rwa [Mailboxes.contents_setDefault]
      · exact hne
    | deleted key => exact hne
  | put ht hfound => exact Or.inl (Mailboxes.contents_put_ne_nil _ hne _)
  | start key hfresh =>
    refine Or.inl ?_
    change (s.muxQueues.setDefault key).1.contents queue ≠ []
    rwa [Mailboxes.contents_setDefault]
  | @daemon other a d d' muxQueues hd hsteps =>
    cases hsteps with
    | get hwaiting htakes =>
      by_cases hqueue : d.queue = queue
      · exact Or.inr ⟨other, d, rfl, hd, hqueue⟩
      · refine Or.inl ?_
        rwa [(Mailboxes.get_eq_some htakes).2.2 queue (Ne.symm hqueue)]
    | _ => exact Or.inl hne
  | _ => exact Or.inl hne

/-- A notification is in the queue, or the daemon has taken one and reads the index next, if it does
not raise. -/
def Pending (s : Controller) (call queue : ℕ) : Prop :=
  s.muxQueues.contents queue ≠ [] ∨
    ∃ d, s.daemons.get call = some d ∧ d.phase ∈ [.refreshing, .raised]

/-- The channels of the daemon are those of the index at some time of this run. -/
def HasRead (cfg : Config) (s : Controller) (call : ℕ) (actions : List Action) (s' : Controller) :
    Prop :=
  ∃ mid rest m d, actions = mid ++ rest ∧ s.run cfg mid = some m ∧
    s'.daemons.get call = some d ∧ d.channels = some (m.indexes.channelsOf d.key)

theorem pending_or_hasRead_step {m m' : Controller} {mid : List Action}
    (hm : s.run cfg mid = some m) (hstep : Stepped cfg m action m')
    (hsole : ∀ other d, action = .daemon other .get → m.daemons.get other = some d →
      d.queue = queue → other = call)
    (h : m.Pending call queue ∨ HasRead cfg s call mid m) :
    m'.Pending call queue ∨ HasRead cfg s call (mid ++ [action]) m' := by
  obtain ⟨hsame, hother⟩ | ⟨key, rfl, hfresh, hstarted⟩ | ⟨a, d, d', rfl, hd, hsteps, hd'⟩ :=
    daemons_of_stepped hstep call
  · -- An action of something else.
    rcases h with (hne | ⟨d, hd, hphase⟩) | ⟨mid₁, mid₂, m₁, d, rfl, hm₁, hd, hread⟩
    · obtain hne' | ⟨other, d, rfl, hd, hqueue⟩ := contents_of_stepped hstep hne
      · exact Or.inl (Or.inl hne')
      · exact absurd rfl (hsole other d rfl hd hqueue ▸ hother .get)
    · exact Or.inl (Or.inr ⟨d, hsame.trans hd, hphase⟩)
    · exact Or.inr ⟨mid₁, mid₂ ++ [action], m₁, d, by simp, hm₁, hsame.trans hd, hread⟩
  · rcases h with (hne | ⟨d, hd, -⟩) | ⟨-, -, -, d, -, -, hd, -⟩
    · obtain hne' | ⟨other, d, heq, -⟩ := contents_of_stepped hstep hne
      · exact Or.inl (Or.inl hne')
      · cases heq
    · exact absurd (hfresh.symm.trans hd) (by simp)
    · exact absurd (hfresh.symm.trans hd) (by simp)
  · have hkey := (daemonStep_frame hsteps).1
    -- Between the get and the reading a daemon can only read or raise.
    have hkept : d'.channels = d.channels → d.phase ∉ [.refreshing, .raised] → a ≠ .get →
        m'.Pending call queue ∨ HasRead cfg s call (mid ++ [.daemon call a]) m' := by
      intro hchannels hphase hget
      rcases h with (hne | ⟨d₀, hd₀, hphase₀⟩) | ⟨mid₁, mid₂, m₁, d₀, rfl, hm₁, hd₀, hread⟩
      · obtain hne' | ⟨other, d₁, heq, -⟩ := contents_of_stepped hstep hne
        · exact Or.inl (Or.inl hne')
        · exact absurd (by simpa using heq) fun h : call = other ∧ a = .get => hget h.2
      · obtain rfl := Option.some.inj (hd₀.symm.trans hd)
        exact absurd hphase₀ hphase
      · obtain rfl := Option.some.inj (hd₀.symm.trans hd)
        refine Or.inr ⟨mid₁, mid₂ ++ [.daemon call a], m₁, d', by simp, hm₁, hd', ?_⟩
        rw [hchannels, hread, hkey]
    generalize m'.muxQueues = muxQueues at hsteps
    cases hsteps with
    | loop hlooping => exact hkept rfl (by simp [hlooping]) (by simp)
    | exit hlooping => exact hkept rfl (by simp [hlooping]) (by simp)
    | get hwaiting htakes => exact Or.inl (Or.inr ⟨_, hd', by simp⟩)
    | timeout hwaiting => exact hkept rfl (by simp [hwaiting]) (by simp)
    | read hrefreshing =>
      exact Or.inr ⟨mid, [.daemon call .read], m, _, rfl, hm, hd', rfl⟩
    | reconciled hreconciling => exact hkept rfl (by simp [hreconciling]) (by simp)
    | raise => exact Or.inl (Or.inr ⟨_, hd', by simp⟩)

def SoleTaker (cfg : Config) (s : Controller) (call queue : ℕ) (actions : List Action) : Prop :=
  ∀ mid other rest m d, actions = mid ++ .daemon other .get :: rest → s.run cfg mid = some m →
    m.daemons.get other = some d → d.queue = queue → other = call

theorem soleTaker_of_forall (h : ∀ other, .daemon other .get ∈ actions → other = call) :
    SoleTaker cfg s call queue actions := by
  intro mid other rest m d heq _ _ _
  exact h other (heq ▸ List.mem_append_right mid List.mem_cons_self)

/-- A notification that was put is in the queue, or its daemon has read the index since. -/
theorem pending_or_hasRead_run (hrun : s.run cfg actions = some s')
    (hne : s.muxQueues.contents queue ≠ []) (hsole : SoleTaker cfg s call queue actions) :
    s'.Pending call queue ∨ HasRead cfg s call actions s' := by
  refine run_induction (P := fun mid m => SoleTaker cfg s call queue mid →
    m.Pending call queue ∨ HasRead cfg s call mid m) (fun _ => Or.inl (Or.inl hne))
    (fun mid action m m' hm hstep ih hsole => ?_) actions s' hrun hsole
  refine pending_or_hasRead_step hm hstep (fun other d heq hd hqueue => ?_) (ih ?_)
  · exact hsole mid other [] m d (by rw [heq]) hm hd hqueue
  · intro mid' other rest m₁ d heq hm₁ hd hqueue
    exact hsole mid' other (rest ++ [action]) m₁ d (by rw [heq]; simp) hm₁ hd hqueue

end Notified

theorem contents_of_put {notified queue : ℕ} {t : Trigger}
    (hrun : s.run cfg (actions ++ [.trigger notified .put]) = some s')
    (ht : s'.triggers.get notified = some t) (hdelivered : t.phase = .delivered queue) :
    s'.muxQueues.contents queue ≠ [] := by
  obtain ⟨m, -, hlast⟩ := run_append_eq_some hrun
  obtain ⟨m', hstep, hnil⟩ := run_cons_eq_some hlast
  obtain rfl := Option.some.inj hnil
  cases stepped_of_step hstep with
  | @put _ queue' t' ht' hfound =>
    obtain rfl := Option.some.inj (ht.symm.trans (Dict.get_set_self _ _ _))
    obtain rfl : queue' = queue := by simpa using hdelivered
    change (m.muxQueues.put queue' t'.channel).contents queue' ≠ []
    rw [Mailboxes.contents_put_self]
    simp
  | emitted hhandler => exact hhandler.elim
  | called hhandler hfresh => exact hhandler.elim

end Controller

end Notifications

open Notifications Controller in
/-- A daemon that waits at an empty queue has read the index after every notification that was put
into the queue. Of a Service of which nothing was shown since the notification, it knows what was
shown last. -/
theorem idle_daemon_is_current (cfg : Config) (before after : List Action) (notified call : ℕ)
    (put idle : Controller) (t : Trigger) (d : Daemon)
    (hput : Controller.started.run cfg (before ++ [.trigger notified .put]) = some put)
    (ht : put.triggers.get notified = some t) (hdelivered : t.phase = .delivered d.queue)
    (hidle : put.run cfg after = some idle) (hd : idle.daemons.get call = some d)
    (hwaiting : d.phase = .waiting) (hempty : idle.muxQueues.contents d.queue = [])
    (hsole : SoleTaker cfg put call d.queue after) :
    ∃ channels, d.channels = some channels ∧
      ∀ body, (∀ event ∈ watchEvents after, event.key ≠ body.key) →
        (body ∈ channels ↔ lastShown body.key (watchEvents before) = some body ∧
          RefersToMux cfg d.key body) := by
  have hne := contents_of_put hput ht hdelivered
  obtain (hpending | ⟨d', hd', hphase⟩) | ⟨mid, rest, m, d', rfl, hm, hd', hread⟩ :=
    pending_or_hasRead_run hidle hne hsole
  · exact absurd hempty hpending
  · obtain rfl := Option.some.inj (hd'.symm.trans hd)
    simp [hwaiting] at hphase
  · obtain rfl := Option.some.inj (hd'.symm.trans hd)
    have hindexes : m.indexes =
        indexesOf cfg (watchEvents (before ++ [.trigger notified .put] ++ mid)) :=
      indexes_run (by rw [run_append, hput]; exact hm)
    refine ⟨_, hread, fun body hquiet => ?_⟩
    have hsplit : watchEvents (before ++ [.trigger notified .put] ++ mid) =
        watchEvents before ++ watchEvents mid := by
      simp [watchEvents, List.filterMap_append]
    rw [hindexes, mem_channelsOf_iff, hsplit, lastShown_append fun event hevent => hquiet event ?_]
    rw [watchEvents, List.filterMap_append]
    exact List.mem_append_left _ hevent

open Notifications in
/-- The daemon of the sample mux is told of `web`, reads the index and waits again. -/
theorem idle_daemon_is_current_web :
    let before : List Action := [.watch (.applied muxBody), .watch (.applied webChannel),
      .start 0 ("default", "mux"), .daemon 0 (.loop false), .handleChannelService 0 webChannel,
      .trigger 0 .look]
    let after : List Action := [.daemon 0 .get, .daemon 0 .read, .daemon 0 .reconciled,
      .daemon 0 (.loop false)]
    ∃ put idle d channels, Controller.started.run sampleConfig (before ++ [.trigger 0 .put]) =
        some put ∧ put.run sampleConfig after = some idle ∧ idle.daemons.get 0 = some d ∧
      d.channels = some channels ∧
      ∀ body, (∀ event ∈ watchEvents after, event.key ≠ body.key) →
        (body ∈ channels ↔ lastShown body.key (watchEvents before) = some body ∧
          RefersToMux sampleConfig d.key body) := by
  intro before after
  obtain ⟨put, hput⟩ : ∃ put, Controller.started.run sampleConfig (before ++ [.trigger 0 .put]) =
      some put := Option.isSome_iff_exists.mp (by decide +kernel)
  have hdelivered : ((Controller.started.run sampleConfig (before ++ [.trigger 0 .put])).bind
      fun put => (put.triggers.get 0).map Trigger.phase) = some (.delivered 0) := by decide +kernel
  have hwaiting : ((Controller.started.run sampleConfig (before ++ [.trigger 0 .put])).bind
      fun put => (put.run sampleConfig after).bind fun idle => (idle.daemons.get 0).map fun d =>
        (d.phase, d.queue, idle.muxQueues.contents d.queue |>.length)) = some (.waiting, 0, 0) := by
    decide +kernel
  rw [hput, Option.bind_some] at hdelivered hwaiting
  obtain ⟨t, ht, hphase⟩ := Option.map_eq_some_iff.mp hdelivered
  obtain ⟨idle, hidle, hd⟩ := Option.bind_eq_some_iff.mp hwaiting
  obtain ⟨d, hd, hstate⟩ := Option.map_eq_some_iff.mp hd
  simp only [Prod.mk.injEq, List.length_eq_zero_iff] at hstate
  obtain ⟨hwaits, hqueue, hempty⟩ := hstate
  obtain ⟨channels, hchannels, hcurrent⟩ := idle_daemon_is_current sampleConfig before after 0 0 put
    idle t d hput ht (by rw [hphase, hqueue]) hidle hd hwaits hempty
    (Controller.soleTaker_of_forall (by simp [after]))
  exact ⟨put, idle, d, channels, hput, hidle, hd, hchannels, hcurrent⟩

end SvcLbMux
