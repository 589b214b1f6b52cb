import SvcLbMux.Notifications

namespace SvcLbMux

open Py Mailbox

namespace Notifications

variable {cfg : Config}

namespace Controller

variable {s s' : Controller} {action : Action}

/-! ## What an action does -/

/-- The actions that take the queue of a mux out of `mux_queues`. -/
def Pops (s : Controller) (muxKey : String × String) : Action → Prop
  | .muxDeletion key => key = muxKey
  | .daemon call (.loop true) => ∃ d, s.daemons.get call = some d ∧ d.key = muxKey
  | _ => False

/-- An action of a daemon changes its phase. Only a reading changes what it has read. -/
inductive DaemonStep (s : Controller) (d : Daemon) : DaemonAction →
    Mailboxes (String × String) ServiceBody → Daemon → Prop
  | loop (looping : d.phase = .looping) :
      DaemonStep s d (.loop false) s.muxQueues { d with phase := .waiting }
  | exit (looping : d.phase = .looping) :
      DaemonStep s d (.loop true) (s.muxQueues.pop d.key) { d with phase := .exited }
  | get {taken : ServiceBody × Mailboxes (String × String) ServiceBody}
      (waiting : d.phase = .waiting) (takes : s.muxQueues.get d.queue = some taken) :
      DaemonStep s d .get taken.2 { d with phase := .refreshing }
  | timeout (waiting : d.phase = .waiting) :
      DaemonStep s d .timeout s.muxQueues { d with phase := .refreshing }
  | read (refreshing : d.phase = .refreshing) : DaemonStep s d .read s.muxQueues
      { d with phase := .reconciling, channels := some (s.indexes.channelsOf d.key) }
  | reconciled (reconciling : d.phase = .reconciling) :
      DaemonStep s d .reconciled s.muxQueues { d with phase := .looping }
  | raise : DaemonStep s d .raise s.muxQueues { d with phase := .raised }

def IsHandler : Action → Prop
  | .handleChannelService _ _ => True
  | .handleEndpoints _ _ => True
  | .channelDeletion _ _ => True
  | _ => False

inductive Stepped (cfg : Config) (s : Controller) : Action → Controller → Prop
  | watch (event : ServiceEvent) : Stepped cfg s (.watch event) (s.watch cfg event)
  | emitted {action : Action} (handler : IsHandler action) : Stepped cfg s action s
  | called {action : Action} {call : ℕ} {mux : String × String} {channel : ServiceBody}
      {noRaise : Bool} (handler : IsHandler action) (fresh : s.triggers.get call = none) :
      Stepped cfg s action
        { s with triggers := s.triggers.set call ⟨mux, channel, noRaise, .searching 0⟩ }
  | look {call n : ℕ} {t : Trigger} (trigger : s.triggers.get call = some t)
      (searching : t.phase = .searching n) : Stepped cfg s (.trigger call .look)
        { s with triggers := s.triggers.set call { t with phase := s.attempt t n } }
  | put {call queue : ℕ} {t : Trigger} (trigger : s.triggers.get call = some t)
      (found : t.phase = .found queue) : Stepped cfg s (.trigger call .put)
        { s with
          triggers := s.triggers.set call { t with phase := .delivered queue }
          muxQueues := s.muxQueues.put queue t.channel }
  | muxDeletion (key : String × String) :
      Stepped cfg s (.muxDeletion key) { s with muxQueues := s.muxQueues.pop key }
  | start {call : ℕ} (key : String × String) (fresh : s.daemons.get call = none) :
      Stepped cfg s (.start call key)
        { s with
          daemons := s.daemons.set call ⟨key, (s.muxQueues.setDefault key).2, .looping, none⟩
          muxQueues := (s.muxQueues.setDefault key).1 }
  | daemon {call : ℕ} {a : DaemonAction} {d d' : Daemon}
      {muxQueues : Mailboxes (String × String) ServiceBody} (daemon : s.daemons.get call = some d)
      (steps : DaemonStep s d a muxQueues d') : Stepped cfg s (.daemon call a)
        { s with daemons := s.daemons.set call d', muxQueues := muxQueues }

theorem get_eq_none_of_not_contains {d : Dict ℕ α} {call : ℕ} (h : ¬ d.contains call = true) :
    d.get call = none := by
  rw [Bool.not_eq_true, Dict.contains, Option.isSome_eq_false_iff, Option.isNone_iff_eq_none] at h
  exact h

theorem stepped_of_callTrigger {ε : Type} {call : ℕ} {mux : Except ε (String × String)}
    {channel : ServiceBody} {noRaise : Bool} (hhandler : IsHandler action)
    (h : s.callTrigger call mux channel noRaise = some s') : Stepped cfg s action s' := by
  unfold callTrigger at h
  split_ifs at h with hused
  cases mux with
  | ok mux =>
    obtain rfl := Option.some.inj h
    exact .called hhandler (get_eq_none_of_not_contains hused)
  | error e =>
    obtain rfl := Option.some.inj h
    exact .emitted hhandler

theorem stepped_of_stepTrigger {call : ℕ} {t : Trigger} {a : TriggerAction}
    (ht : s.triggers.get call = some t) (h : s.stepTrigger call t a = some s') :
    Stepped cfg s (.trigger call a) s' := by
  unfold stepTrigger at h
  cases a with
  | look =>
    cases hphase : t.phase with
    | searching n =>
      simp only [hphase, Option.some.injEq] at h
      exact h ▸ .look ht hphase
    | _ => simp [hphase] at h
  | put =>
    cases hphase : t.phase with
    | found queue =>
      simp only [hphase, Option.some.injEq] at h
      exact h ▸ .put ht hphase
    | _ => simp [hphase] at h

theorem stepped_of_stepDaemon {call : ℕ} {d : Daemon} {a : DaemonAction}
    (hd : s.daemons.get call = some d) (h : s.stepDaemon call d a = some s') :
    Stepped cfg s (.daemon call a) s' := by
  cases a with
  | loop stopped =>
    simp only [stepDaemon] at h
    split_ifs at h with hphase hstopped
    · subst hstopped
      exact Option.some.inj h ▸ .daemon hd (.exit hphase)
    · obtain rfl : stopped = false := by simpa using hstopped
      exact Option.some.inj h ▸ .daemon hd (.loop hphase)
  | get =>
    simp only [stepDaemon] at h
    split_ifs at h with hphase
    obtain ⟨taken, htaken, rfl⟩ := Option.map_eq_some_iff.mp h
    exact .daemon hd (.get hphase htaken)
  | timeout =>
    simp only [stepDaemon] at h
    split_ifs at h with hphase
    exact Option.some.inj h ▸ .daemon hd (.timeout hphase.1)
  | read =>
    simp only [stepDaemon] at h
    split_ifs at h with hphase
    exact Option.some.inj h ▸ .daemon hd (.read hphase)
  | reconciled =>
    simp only [stepDaemon] at h
    split_ifs at h with hphase
    exact Option.some.inj h ▸ .daemon hd (.reconciled hphase)
  | raise =>
    simp only [stepDaemon] at h
    split_ifs at h
    exact Option.some.inj h ▸ .daemon hd .raise

theorem stepped_of_step (h : s.step cfg action = some s') : Stepped cfg s action s' := by
  cases action with
  | watch event => exact Option.some.inj h ▸ .watch event
  | handleChannelService call body =>
    simp only [step] at h
    split_ifs at h
    exact stepped_of_callTrigger trivial h
  | handleEndpoints call key =>
    obtain ⟨svc, -, h⟩ := Option.bind_eq_some_iff.mp h
    exact stepped_of_callTrigger trivial h
  | channelDeletion call body =>
    simp only [step] at h
    split_ifs at h
    exact stepped_of_callTrigger trivial h
  | trigger call a =>
    obtain ⟨t, ht, h⟩ := Option.bind_eq_some_iff.mp h
    exact stepped_of_stepTrigger ht h
  | muxDeletion key => exact Option.some.inj h ▸ .muxDeletion key
  | start call key =>
    simp only [step] at h
    split_ifs at h with hused
    exact Option.some.inj h ▸ .start key (get_eq_none_of_not_contains hused)
  | daemon call a =>
    obtain ⟨d, hd, h⟩ := Option.bind_eq_some_iff.mp h
    exact stepped_of_stepDaemon hd h

theorem change_of_daemonStep {call : ℕ} {d d' : Daemon} {a : DaemonAction}
    {muxQueues : Mailboxes (String × String) ServiceBody} (hd : s.daemons.get call = some d)
    (h : DaemonStep s d a muxQueues d') :
    s.muxQueues.Change (fun key => s.Pops key (.daemon call a)) muxQueues := by
  cases h with
  | exit hlooping => exact .pop ⟨d, hd, rfl⟩
  | get hwaiting htakes => exact .get htakes
  | _ => exact .same

theorem change_of_stepped (h : Stepped cfg s action s') :
    s.muxQueues.Change (fun key => s.Pops key action) s'.muxQueues := by
  cases h with
  | watch event =>
    cases event with
    | applied body =>
      simp only [watch]
      split_ifs
      · exact .setDefault _
      · exact .same
    | deleted key => exact .same
  | put ht hfound => exact .put _ _
  | muxDeletion key => exact .pop rfl
  | start key hfresh => exact .setDefault key
  | daemon hd hsteps => exact change_of_daemonStep hd hsteps
  | _ => exact .same

theorem daemonStep_frame {d d' : Daemon} {a : DaemonAction}
    {muxQueues : Mailboxes (String × String) ServiceBody} (h : DaemonStep s d a muxQueues d') :
    d'.key = d.key ∧ d'.queue = d.queue := by
  cases h <;> exact ⟨rfl, rfl⟩

/-- Of the daemons an action changes the one that it is an action of, or starts one. -/
theorem daemons_of_stepped (h : Stepped cfg s action s') (call : ℕ) :
    (s'.daemons.get call = s.daemons.get call ∧ ∀ a, action ≠ .daemon call a) ∨
    (∃ key, action = .start call key ∧ s.daemons.get call = none ∧
      s'.daemons.get call = some ⟨key, (s.muxQueues.setDefault key).2, .looping, none⟩) ∨
    ∃ a d d', action = .daemon call a ∧ s.daemons.get call = some d ∧
      DaemonStep s d a s'.muxQueues d' ∧ s'.daemons.get call = some d' := by
  cases h with
  | emitted hhandler =>
    refine Or.inl ⟨rfl, ?_⟩
    rintro a rfl
    exact hhandler
  | called hhandler hfresh =>
    refine Or.inl ⟨rfl, ?_⟩
    rintro a rfl
    exact hhandler
  | @start other key hfresh =>
    by_cases hcall : other = call
    · subst hcall
      exact Or.inr (Or.inl ⟨key, rfl, hfresh, Dict.get_set_self _ _ _⟩)
    · exact Or.inl ⟨Dict.get_set_ne _ hcall _, by simp⟩
  | @daemon other a d d' muxQueues hd hsteps =>
    by_cases hcall : other = call
    · subst hcall
      exact Or.inr (Or.inr ⟨a, d, d', rfl, hd, hsteps, Dict.get_set_self _ _ _⟩)
    · exact Or.inl ⟨Dict.get_set_ne _ hcall _, by simp [hcall]⟩
  | _ => exact Or.inl ⟨rfl, by simp⟩

theorem daemon_persists (h : Stepped cfg s action s') {call : ℕ} {d : Daemon}
    (hd : s.daemons.get call = some d) :
    ∃ d', s'.daemons.get call = some d' ∧ d'.key = d.key ∧ d'.queue = d.queue := by
  obtain ⟨hsame, -⟩ | ⟨key, -, hfresh, -⟩ | ⟨a, d₀, d', -, hd₀, hsteps, hd'⟩ :=
    daemons_of_stepped h call
  · exact ⟨d, hsame.trans hd, rfl, rfl⟩
  · rw [hd] at hfresh
    cases hfresh
  · obtain rfl := Option.some.inj (hd₀.symm.trans hd)
    exact ⟨d', hd', daemonStep_frame hsteps⟩

/-- Of the triggers an action changes the one that it is an action of, or calls one. -/
theorem triggers_of_stepped (h : Stepped cfg s action s') (call : ℕ) :
    s'.triggers.get call = s.triggers.get call ∨
    (s.triggers.get call = none ∧ ∃ mux channel noRaise,
      s'.triggers.get call = some ⟨mux, channel, noRaise, .searching 0⟩) ∨
    (∃ t n, s.triggers.get call = some t ∧ t.phase = .searching n ∧
      s'.triggers.get call = some { t with phase := s.attempt t n }) ∨
    ∃ t queue, s.triggers.get call = some t ∧ t.phase = .found queue ∧
      s'.triggers.get call = some { t with phase := .delivered queue } := by
  cases h with
  | @called _ other mux channel noRaise hhandler hfresh =>
    by_cases hcall : other = call
    · subst hcall
      exact Or.inr (Or.inl ⟨hfresh, mux, channel, noRaise, Dict.get_set_self _ _ _⟩)
    · exact Or.inl (Dict.get_set_ne _ hcall _)
  | @look other n t ht hsearching =>
    by_cases hcall : other = call
    · subst hcall
      exact Or.inr (Or.inr (Or.inl ⟨t, n, ht, hsearching, Dict.get_set_self _ _ _⟩))
    · exact Or.inl (Dict.get_set_ne _ hcall _)
  | @put other queue t ht hfound =>
    by_cases hcall : other = call
    · subst hcall
      exact Or.inr (Or.inr (Or.inr ⟨t, queue, ht, hfound, Dict.get_set_self _ _ _⟩))
    · exact Or.inl (Dict.get_set_ne _ hcall _)
  | _ => exact Or.inl rfl

/-! ## Runs -/

theorem run_append {actions actions' : List Action} :
    s.run cfg (actions ++ actions') = (s.run cfg actions).bind fun m => m.run cfg actions' :=
  List.foldlM_append

theorem run_append_eq_some {actions actions' : List Action}
    (h : s.run cfg (actions ++ actions') = some s') :
    ∃ m, s.run cfg actions = some m ∧ m.run cfg actions' = some s' := by
  rw [run_append] at h
  exact Option.bind_eq_some_iff.mp h

theorem run_cons_eq_some {actions : List Action} (h : s.run cfg (action :: actions) = some s') :
    ∃ m, s.step cfg action = some m ∧ m.run cfg actions = some s' := by
  rw [run, List.foldlM_cons] at h
  exact Option.bind_eq_some_iff.mp h

theorem run_induction {P : List Action → Controller → Prop} (hfirst : P [] s)
    (hnext : ∀ mid action m m', s.run cfg mid = some m → Stepped cfg m action m' → P mid m →
      P (mid ++ [action]) m') :
    ∀ actions s', s.run cfg actions = some s' → P actions s' := by
  intro actions
  induction actions using List.reverseRecOn with
  | nil =>
    intro s' h
    exact Option.some.inj h ▸ hfirst
  | append_singleton actions action ih =>
    intro s' h
    obtain ⟨m, hm, hlast⟩ := run_append_eq_some h
    obtain ⟨m', hstep, hnil⟩ := run_cons_eq_some hlast
    exact Option.some.inj hnil ▸ hnext actions action m m' hm (stepped_of_step hstep) (ih m hm)

structure Numbered (s : Controller) : Prop where
  queues : s.muxQueues.Created
  daemons : ∀ call d, s.daemons.get call = some d → d.queue < s.muxQueues.created

theorem numbered_run {actions : List Action} (h : Controller.started.run cfg actions = some s) :
    s.Numbered := by
  refine run_induction (P := fun _ m => m.Numbered)
    ⟨Mailboxes.created_empty, fun call d h => absurd h (by simp [started])⟩
    (fun mid action m m' _ hstep ih => ?_) actions s h
  have hchange := change_of_stepped hstep
  refine ⟨Mailboxes.created_change hchange ih.queues, fun call d hd => ?_⟩
  have hle := Mailboxes.created_le_change hchange
  obtain ⟨hsame, -⟩ | ⟨key, rfl, -, hstarted⟩ | ⟨a, d₀, d', -, hd₀, hsteps, hd'⟩ :=
    daemons_of_stepped hstep call
  · exact lt_of_lt_of_le (ih.daemons call d (hsame.symm.trans hd)) hle
  · obtain rfl := Option.some.inj (hd.symm.trans hstarted)
    cases hstep with
    | start key hfresh => exact Mailboxes.lt_created_of_setDefault ih.queues
    | emitted hhandler => exact hhandler.elim
    | called hhandler hfresh => exact hhandler.elim
  · obtain rfl := Option.some.inj (hd.symm.trans hd')
    rw [(daemonStep_frame hsteps).2]
    exact lt_of_lt_of_le (ih.daemons call d₀ hd₀) hle

/-! ## Queues that stay registered -/

/-- Nobody takes the queue of the mux out of `mux_queues`. -/
def NeverPops (cfg : Config) (s : Controller) (muxKey : String × String) (actions : List Action) :
    Prop :=
  ∀ mid action rest m, actions = mid ++ action :: rest → s.run cfg mid = some m →
    ¬ m.Pops muxKey action

theorem neverPops_append {muxKey : String × String} {mid : List Action} {m : Controller}
    (h : NeverPops cfg s muxKey (mid ++ [action])) (hm : s.run cfg mid = some m) :
    NeverPops cfg s muxKey mid ∧ ¬ m.Pops muxKey action := by
  refine ⟨fun mid' action' rest m' heq hm' => ?_, h mid action [] m rfl hm⟩
  exact h mid' action' (rest ++ [action]) m' (by rw [heq]; simp) hm'

variable {muxKey : String × String} {queue : ℕ} {actions : List Action}

theorem registered_run (hrun : s.run cfg actions = some s')
    (hregistered : s.muxQueues.registry.get muxKey = some queue)
    (hkept : NeverPops cfg s muxKey actions) :
    s'.muxQueues.registry.get muxKey = some queue := by
  refine run_induction (P := fun mid m => NeverPops cfg s muxKey mid →
    m.muxQueues.registry.get muxKey = some queue) (fun _ => hregistered)
    (fun mid action m m' hm hstep ih hkept => ?_) actions s' hrun hkept
  obtain ⟨hmid, hlast⟩ := neverPops_append hkept hm
  exact Mailboxes.registered_change (change_of_stepped hstep) hlast (ih hmid)

theorem unregistered_run (hrun : s.run cfg actions = some s')
    (h : s.muxQueues.Unregistered muxKey queue) : s'.muxQueues.Unregistered muxKey queue :=
  run_induction (P := fun _ m => m.muxQueues.Unregistered muxKey queue) h
    (fun _ _ _ _ _ hstep => Mailboxes.unregistered_change (change_of_stepped hstep)) actions s' hrun

theorem not_pops_of_isHandler (h : IsHandler action) : ¬ s.Pops muxKey action := by
  cases action <;> simp_all [IsHandler, Pops]

theorem unregistered_of_pops (hstep : Stepped cfg s action s') (hpops : s.Pops muxKey action)
    (hlt : queue < s.muxQueues.created) : s'.muxQueues.Unregistered muxKey queue := by
  cases hstep with
  | muxDeletion key =>
    obtain rfl : key = muxKey := hpops
    exact Mailboxes.unregistered_pop_self hlt
  | @daemon call a d d' muxQueues hd hsteps =>
    cases hsteps with
    | exit hlooping =>
      obtain ⟨d₀, hd₀, rfl⟩ := hpops
      obtain rfl := Option.some.inj (hd₀.symm.trans hd)
      exact Mailboxes.unregistered_pop_self hlt
    | _ => exact hpops.elim
  | emitted hhandler => exact absurd hpops (not_pops_of_isHandler hhandler)
  | called hhandler hfresh => exact absurd hpops (not_pops_of_isHandler hhandler)
  | _ => exact hpops.elim

/-! ## Triggers -/

def CalledAfter (s : Controller) (call : ℕ) : Prop := s.triggers.get call = none

/-- While the queue of a mux is registered every trigger finds it at its first attempt. -/
theorem phase_of_registered (hrun : s.run cfg actions = some s')
    (hregistered : s.muxQueues.registry.get muxKey = some queue)
    (hkept : NeverPops cfg s muxKey actions) {call : ℕ} {t : Trigger} (hcalled : CalledAfter s call)
    (ht : s'.triggers.get call = some t) (hmux : t.mux = muxKey) :
    t.phase ∈ [.searching 0, .found queue, .delivered queue] := by
  refine run_induction (P := fun mid m => NeverPops cfg s muxKey mid →
    ∀ t, m.triggers.get call = some t → t.mux = muxKey →
      t.phase ∈ [.searching 0, .found queue, .delivered queue])
    (fun _ t ht _ => absurd (hcalled.symm.trans ht) (by simp))
    (fun mid action m m' hm hstep ih hkept t ht hmux => ?_) actions s' hrun hkept t ht hmux
  obtain ⟨hmid, hlast⟩ := neverPops_append hkept hm
  have hregistered' := registered_run hm hregistered hmid
  obtain hsame | ⟨-, mux, channel, noRaise, hnew⟩ | ⟨t₀, n, ht₀, hphase, hlooked⟩ |
    ⟨t₀, q, ht₀, hphase, hput⟩ := triggers_of_stepped hstep call
  · exact ih hmid t (hsame.symm.trans ht) hmux
  · obtain rfl := Option.some.inj (ht.symm.trans hnew)
    simp
  · obtain rfl := Option.some.inj (ht.symm.trans hlooked)
    have hfound : m.attempt t₀ n = .found queue := by
      rw [attempt, show t₀.mux = muxKey from hmux, hregistered']
    simp [hfound]
  · obtain rfl := Option.some.inj (ht.symm.trans hput)
    have hmem := ih hmid t₀ ht₀ hmux
    rw [hphase] at hmem
    obtain rfl : q = queue := by simpa using hmem
    simp

theorem phase_of_unregistered (hrun : s.run cfg actions = some s')
    (h : s.muxQueues.Unregistered muxKey queue) {call : ℕ} {t : Trigger}
    (hcalled : CalledAfter s call) (ht : s'.triggers.get call = some t) (hmux : t.mux = muxKey) :
    t.phase ∉ [.found queue, .delivered queue] := by
  refine run_induction (P := fun mid m => ∀ t, m.triggers.get call = some t → t.mux = muxKey →
      t.phase ∉ [.found queue, .delivered queue])
    (fun t ht _ => absurd (hcalled.symm.trans ht) (by simp))
    (fun mid action m m' hm hstep ih t ht hmux => ?_) actions s' hrun t ht hmux
  have hunregistered := unregistered_run hm h
  obtain hsame | ⟨-, mux, channel, noRaise, hnew⟩ | ⟨t₀, n, ht₀, hphase, hlooked⟩ |
    ⟨t₀, q, ht₀, hphase, hput⟩ := triggers_of_stepped hstep call
  · exact ih t (hsame.symm.trans ht) hmux
  · obtain rfl := Option.some.inj (ht.symm.trans hnew)
    simp
  · obtain rfl := Option.some.inj (ht.symm.trans hlooked)
    have hother : ∀ q, m.muxQueues.registry.get t₀.mux = some q → q ≠ queue := by
      rintro q hq rfl
      exact hunregistered.ne (hmux ▸ hq)
    dsimp only [attempt]
    cases hlookup : m.muxQueues.registry.get t₀.mux with
    | some q => simpa using hother q hlookup
    | none =>
      dsimp only
      split_ifs <;> simp
  · obtain rfl := Option.some.inj (ht.symm.trans hput)
    have hmem := ih t₀ ht₀ hmux
    rw [hphase] at hmem
    simpa using hmem

/-! ## Daemons -/

theorem daemon_persists_run (hrun : s.run cfg actions = some s') {call : ℕ} {d : Daemon}
    (hd : s.daemons.get call = some d) :
    ∃ d', s'.daemons.get call = some d' ∧ d'.key = d.key ∧ d'.queue = d.queue := by
  refine run_induction (P := fun _ m => ∃ d', m.daemons.get call = some d' ∧ d'.key = d.key ∧
    d'.queue = d.queue) ⟨d, hd, rfl, rfl⟩ (fun mid action m m' _ hstep ih => ?_) actions s' hrun
  obtain ⟨d', hd', hkey, hqueue⟩ := ih
  obtain ⟨d'', hd'', hkey', hqueue'⟩ := daemon_persists hstep hd'
  exact ⟨d'', hd'', hkey'.trans hkey, hqueue'.trans hqueue⟩

theorem started_daemon {call : ℕ} (hrun : s.run cfg (actions ++ [.start call muxKey]) = some s') :
    ∃ d, s'.daemons.get call = some d ∧ s'.muxQueues.registry.get muxKey = some d.queue := by
  obtain ⟨m, -, hlast⟩ := run_append_eq_some hrun
  obtain ⟨m', hstep, hnil⟩ := run_cons_eq_some hlast
  obtain rfl := Option.some.inj hnil
  cases stepped_of_step hstep with
  | start key hfresh =>
    exact ⟨_, Dict.get_set_self _ _ _, Mailboxes.registry_setDefault_self⟩
  | emitted hhandler => exact hhandler.elim
  | called hhandler hfresh => exact hhandler.elim

end Controller

end Notifications

open Notifications Controller in
/-- A daemon holds the registered queue of its mux exactly as long as nobody takes it out of
`mux_queues`. While nobody does, every trigger that is called finds it at the first attempt, and puts
its notification into it or still has to. Of the triggers that are called later none ever does. -/
theorem notifications_reach_daemon (cfg : Config) (before after : List Action) (call : ℕ)
    (muxKey : String × String) (first last : Controller) (d : Daemon)
    (hfirst : Controller.started.run cfg (before ++ [.start call muxKey]) = some first)
    (hlast : first.run cfg after = some last) (hd : last.daemons.get call = some d) :
    (last.muxQueues.registry.get muxKey = some d.queue ↔ NeverPops cfg first muxKey after) ∧
    (NeverPops cfg first muxKey after → ∀ n t, first.CalledAfter n →
      last.triggers.get n = some t → t.mux = muxKey →
        t.phase ∈ [.searching 0, .found d.queue, .delivered d.queue]) ∧
    ∀ mid action rest m m', after = mid ++ action :: rest → first.run cfg mid = some m →
      m.step cfg action = some m' → m.Pops muxKey action → ∀ n t, m'.CalledAfter n →
        last.triggers.get n = some t → t.mux = muxKey →
          t.phase ∉ [.found d.queue, .delivered d.queue] := by
  obtain ⟨d₀, hd₀, hregistered⟩ := started_daemon hfirst
  obtain ⟨d', hd', -, hqueue⟩ := daemon_persists_run hlast hd₀
  obtain rfl := Option.some.inj (hd'.symm.trans hd)
  rw [← hqueue] at hregistered
  -- After the queue is taken out, it is not that of the mux, and the run goes on.
  have hgone : ∀ mid action rest m, after = mid ++ action :: rest → first.run cfg mid = some m →
      m.Pops muxKey action → ∃ m', m.step cfg action = some m' ∧ m'.run cfg rest = some last ∧
        m'.muxQueues.Unregistered muxKey d'.queue := by
    rintro mid action rest m rfl hm hpops
    obtain ⟨m₁, hm₁, hrest⟩ := run_append_eq_some hlast
    obtain rfl := Option.some.inj (hm₁.symm.trans hm)
    obtain ⟨m', hstep, hrest⟩ := run_cons_eq_some hrest
    obtain ⟨d₁, hd₁, -, hqueue₁⟩ := daemon_persists_run hm hd₀
    have hnumbered : m₁.Numbered := @numbered_run cfg m₁
      (before ++ [.start call muxKey] ++ mid) (by
      rw [run_append, hfirst]
      exact hm)
    have hlt := hnumbered.daemons call d₁ hd₁
    rw [hqueue₁, ← hqueue] at hlt
    exact ⟨m', hstep, hrest, unregistered_of_pops (stepped_of_step hstep) hpops hlt⟩
  refine ⟨⟨fun hlive mid action rest m heq hm hpops => ?_, registered_run hlast hregistered⟩,
    fun hkept n t hcalled ht hmux => phase_of_registered hlast hregistered hkept hcalled ht hmux, ?_⟩
  · obtain ⟨m', -, hrest, hunregistered⟩ := hgone mid action rest m heq hm hpops
    exact (unregistered_run hrest hunregistered).ne hlive
  · intro mid action rest m m' heq hm hstep hpops n t hcalled ht hmux
    obtain ⟨m'', hstep', hrest, hunregistered⟩ := hgone mid action rest m heq hm hpops
    obtain rfl := Option.some.inj (hstep'.symm.trans hstep)
    exact phase_of_unregistered hrest hunregistered hcalled ht hmux

open Notifications in
/-- A trigger for the channel `web`, after the daemon of its mux has started. -/
theorem notifications_reach_daemon_web :
    ∃ first last d,
      Controller.started.run sampleConfig
        ([.watch (.applied muxBody)] ++ [.start 0 ("default", "mux")]) = some first ∧
      first.run sampleConfig [.handleChannelService 0 webChannel, .trigger 0 .look,
        .trigger 0 .put, .muxDeletion ("default", "mux")] = some last ∧
      last.daemons.get 0 = some d ∧
      (last.muxQueues.registry.get ("default", "mux") = some d.queue ↔
        Controller.NeverPops sampleConfig first ("default", "mux")
          [.handleChannelService 0 webChannel, .trigger 0 .look, .trigger 0 .put,
            .muxDeletion ("default", "mux")]) := by
  obtain ⟨first, hfirst⟩ : ∃ first, Controller.started.run sampleConfig
      ([.watch (.applied muxBody)] ++ [.start 0 ("default", "mux")]) = some first :=
    Option.isSome_iff_exists.mp (by decide +kernel)
  obtain ⟨last, hlast⟩ : ∃ last, first.run sampleConfig [.handleChannelService 0 webChannel,
      .trigger 0 .look, .trigger 0 .put, .muxDeletion ("default", "mux")] = some last := by
    have hends : ((Controller.started.run sampleConfig
        ([.watch (.applied muxBody)] ++ [.start 0 ("default", "mux")])).bind fun first =>
          first.run sampleConfig [.handleChannelService 0 webChannel, .trigger 0 .look,
            .trigger 0 .put, .muxDeletion ("default", "mux")]).isSome := by decide +kernel
    rw [hfirst] at hends
    exact Option.isSome_iff_exists.mp hends
  obtain ⟨d₀, hd₀, -⟩ := Controller.started_daemon hfirst
  obtain ⟨d, hd, -, -⟩ := Controller.daemon_persists_run hlast hd₀
  exact ⟨first, last, d, hfirst, hlast, hd,
    (notifications_reach_daemon sampleConfig _ _ 0 _ first last d hfirst hlast hd).1⟩

end SvcLbMux
