import SvcLbMux.ChannelLoop

namespace SvcLbMux

open Py

variable {cfg : Config}

structure StartEvidence where
  oldPorts : Finset MuxPort
  recovered : Dict PortKey String
  reservedPorts : Finset PortKey
  ranges : List (Int × Int)
  state : Option StateDoc

def StartEvidence.muxState (e : StartEvidence) (input : PassInput) : MuxState :=
  MuxState.init (input.mux.namespace_, input.mux.name) e.ranges e.state
    (sortChannels input.channels) e.reservedPorts e.recovered

structure Started (cfg : Config) (input : PassInput) (start : PassStart) (e : StartEvidence) :
    Prop where
  oldPorts : oldMuxPorts input.mux.ports = .ok e.oldPorts
  recovered : collectExistingPortOwners cfg (sortChannels input.channels)
    (input.order.toList e.oldPorts) = .ok e.recovered
  reserved : collectStaticPortClaims cfg (sortChannels input.channels) = .ok e.reservedPorts
  maxPorts : start.maxPorts = (muxPortLimit cfg input.mux).1
  loop : start.loop =
    ⟨∅, e.recovered.update ((e.muxState input).portOwners cfg), e.muxState input⟩
  loaded : ((∃ err, (muxStore cfg input.mux).load input.configmap = .error err) ∧
      e.ranges = [] ∧ e.state = none ∧ start.store = none) ∨
    ((muxStore cfg input.mux).load input.configmap = .ok e.state ∧
      e.ranges = (muxPortRanges cfg input.mux).1 ∧ start.store = some (muxStore cfg input.mux))

theorem started_of_passStart {input : PassInput} {start : PassStart}
    (h : passStart cfg input = .ok start) : ∃ e, Started cfg input start e := by
  unfold passStart at h
  split at h
  · cases h
  rename_i oldPorts hold
  dsimp only at h
  split at h
  · cases h
  rename_i recovered hrecovered
  cases hreserved : collectStaticPortClaims cfg (sortChannels input.channels) with
  | error err => simp [buildMuxState, hreserved, Except.map] at h
  | ok reservedPorts =>
    cases hload : (muxStore cfg input.mux).load input.configmap with
    | error err =>
      simp only [buildMuxState, hreserved, Except.map, hload, Except.ok.injEq] at h
      subst h
      exact ⟨⟨oldPorts, recovered, reservedPorts, [], none⟩, hold, hrecovered, hreserved, rfl, rfl,
        Or.inl ⟨⟨err, hload⟩, rfl, rfl, rfl⟩⟩
    | ok state =>
      simp only [buildMuxState, hreserved, Except.map, hload, Except.ok.injEq] at h
      subst h
      exact ⟨⟨oldPorts, recovered, reservedPorts, _, state⟩, hold, hrecovered, hreserved, rfl, rfl,
        Or.inr ⟨hload, rfl, rfl⟩⟩

/-- What every state of a loop over admitted channels satisfies. -/
structure LoopState.Sound (s : LoopState) : Prop where
  wellKeyed : WellKeyed s.muxState.claims
  normalized : MuxState.Normalized s.muxState.claims
  ranges : RangesValid s.muxState

theorem sound_channelStep {muxKey : String × String} {maxPorts : Option Int} {s s' : LoopState}
    {c : Channel} {outcome : Outcome} (hs : s.Sound)
    (h : channelStep cfg muxKey maxPorts s c = .ok (s', outcome)) : s'.Sound :=
  ⟨wellKeyed_channelStep hs.wellKeyed h, normalized_channelStep hs.normalized h,
    rangesValid_of_fixed hs.ranges (fixed_channelStep h)⟩

theorem rangesValid_muxPortRanges (mux : MuxService) {port : Int}
    (h : containsPort (muxPortRanges cfg mux).1 port = true) : 1 ≤ port ∧ port ≤ 65535 := by
  unfold muxPortRanges at h
  split at h
  · simp [containsPort] at h
  · rename_i ranges hranges
    exact parsePortRanges_inRange cfg hranges h

namespace Started

variable {input : PassInput} {start : PassStart} {e : StartEvidence}

theorem sound (h : Started cfg input start e) : start.loop.Sound := by
  rw [h.loop]
  refine ⟨MuxState.wellKeyed_init, MuxState.normalized_init, fun port hport => ?_⟩
  change containsPort e.ranges port = true at hport
  rcases h.loaded with ⟨-, hranges, -⟩ | ⟨-, hranges, -⟩
  · rw [hranges] at hport
    simp [containsPort] at hport
  · rw [hranges] at hport
    exact rangesValid_muxPortRanges _ hport

theorem get_portOwners (h : Started cfg input start e) (key : PortKey) :
    start.loop.portOwners.get key =
      (((e.muxState input).portOwners cfg).get key).or (e.recovered.get key) := by
  rw [h.loop]
  exact Dict.get_update _ _ key

end Started

/-- Every state in which a pass meets a channel is sound, and knows what was read at the start. -/
theorem sound_of_meets {input : PassInput} {start : PassStart} {c : Channel} {s : LoopState}
    (hstart : passStart cfg input = .ok start) (hmeets : PassMeets cfg input c s) :
    s.Sound ∧ s.muxState.fixed = start.loop.muxState.fixed := by
  obtain ⟨before, after, log, -, hrun⟩ := turn_of_meets hstart hmeets
  obtain ⟨e, he⟩ := started_of_passStart hstart
  refine Loop.run_invariant (fun s => s.Sound ∧ s.muxState.fixed = start.loop.muxState.fixed)
    ⟨he.sound, rfl⟩ ?_ hrun
  rintro s c s' outcome - ⟨hs, hfixed⟩ hstep
  exact ⟨sound_channelStep hs hstep, (fixed_channelStep hstep).trans hfixed⟩

/-! ## Passes over admitted channels -/

/-- The input of a pass over Services that the API server has admitted, each once. -/
structure AdmittedPass extends PassInput where
  admitted : ∀ c ∈ channels, c.Admitted
  distinct : (channels.map Channel.key).Nodup

/-- What `muxPass` needs of what it reads: every port of the mux Service is named, and
`parse_port_mappings` reads the `ports` annotation of every channel. An iteration needs more. -/
def Readable (cfg : Config) (input : PassInput) : Prop :=
  (∀ p ∈ input.mux.ports, p.name ≠ none ∧ p.protocol ≠ none) ∧
    ∀ c ∈ input.channels, PortsAnnotationReadable cfg c

instance (input : PassInput) : Decidable (Readable cfg input) :=
  inferInstanceAs (Decidable (_ ∧ _))

theorem oldMuxPorts_ok_iff (ports : List ServicePort) :
    (∃ oldPorts, oldMuxPorts ports = .ok oldPorts) ↔
      ∀ p ∈ ports, p.name ≠ none ∧ p.protocol ≠ none := by
  induction ports with
  | nil => simp [oldMuxPorts]
  | cons p ports ih =>
    rw [oldMuxPorts, List.forall_mem_cons, ← ih]
    cases p.name with
    | none => simp
    | some name =>
      cases p.protocol with
      | none => simp
      | some protocol =>
        cases oldMuxPorts ports with
        | error err => simp [Except.map]
        | ok rest => simp [Except.map]

theorem mem_sortChannels {channels : List Channel} {c : Channel} :
    c ∈ sortChannels channels ↔ c ∈ channels := mem_sortBy _ _ _

theorem mem_channels_of_meets {input : PassInput} {c : Channel} {t : LoopState}
    (h : PassMeets cfg input c t) : c ∈ input.channels := by
  obtain ⟨start, -, before, after, log, hsplit, -⟩ := h
  exact mem_sortChannels.mp (hsplit ▸ List.mem_append_right _ List.mem_cons_self)

namespace AdmittedPass

variable (input : AdmittedPass)

theorem nodup_sortChannels : ((sortChannels input.channels).map Channel.key).Nodup :=
  ((perm_sortBy channelSortKey input.channels).map Channel.key).nodup_iff.mpr input.distinct

theorem eq_of_key_eq {c d : Channel} (hc : c ∈ input.channels) (hd : d ∈ input.channels)
    (h : c.key = d.key) : c = d := List.inj_on_of_nodup_map input.distinct hc hd h

theorem sortChannels_eq {channels : List Channel} (hperm : input.channels.Perm channels)
    (hsorted : channels.Pairwise fun c d => channelSortKey c ≤ channelSortKey d) :
    sortChannels input.channels = channels :=
  ((perm_sortBy channelSortKey input.channels).trans hperm).eq_of_pairwise
    (fun _ _ hc hd hle hge => input.eq_of_key_eq (mem_sortChannels.mp hc) (hperm.mem_iff.mpr hd)
      (toLex.injective (le_antisymm hle hge))) (pairwise_sortBy channelSortKey _) hsorted

theorem claimKey_ne {c d : Channel} (hc : c ∈ input.channels) (hd : d ∈ input.channels)
    (hne : d ≠ c) {p q : ServicePort} (hp : p ∈ c.ports) : d.claimKey q ≠ c.claimKey p := fun h =>
  hne (input.eq_of_key_eq hd hc (eq_of_claimKey_eq (input.admitted c hc) hp h).1)

theorem passStart_ok (h : Readable cfg input.toPassInput) :
    ∃ start, passStart cfg input.toPassInput = .ok start := by
  obtain ⟨oldPorts, hold⟩ := (oldMuxPorts_ok_iff _).mpr h.1
  obtain ⟨recovered, hrecovered⟩ := (collectExistingPortOwners_ok_iff _
    (input.order.toList oldPorts)).mpr fun c hc => h.2 c (mem_sortChannels.mp hc)
  obtain ⟨reservedPorts, hreserved⟩ := collectStaticPortClaims_ok cfg
    fun c hc => input.admitted c (mem_sortChannels.mp hc)
  unfold passStart
  rw [hold]
  dsimp only
  rw [hrecovered]
  simp only [buildMuxState, hreserved, Except.map]
  exact ⟨_, rfl⟩

/-- A pass over admitted channels ends exactly when what it reads is readable. -/
theorem muxPass_ok_iff :
    (∃ r, muxPass cfg input.toPassInput = .ok r) ↔ Readable cfg input.toPassInput := by
  constructor
  · rintro ⟨r, hr⟩
    obtain ⟨start, hstart, -⟩ := muxPass_eq_ok hr
    obtain ⟨e, he⟩ := started_of_passStart hstart
    refine ⟨(oldMuxPorts_ok_iff _).mp ⟨_, he.oldPorts⟩, fun c hc => ?_⟩
    exact (collectExistingPortOwners_ok_iff _ _).mp ⟨_, he.recovered⟩ c (mem_sortChannels.mpr hc)
  · intro h
    obtain ⟨start, hstart⟩ := input.passStart_ok h
    obtain ⟨e, he⟩ := started_of_passStart hstart
    have hstep : ∀ s : LoopState, ∀ c ∈ sortChannels input.channels, s.Sound → ∃ s' outcome,
        channelStep cfg (input.mux.namespace_, input.mux.name) start.maxPorts s c =
          .ok (s', outcome) ∧ s'.Sound := by
      intro s c hc hs
      obtain ⟨s', outcome, hstep⟩ := channelStep_ok (input.admitted c (mem_sortChannels.mp hc))
        hs.wellKeyed hs.ranges (input.mux.namespace_, input.mux.name) start.maxPorts
      exact ⟨s', outcome, hstep, sound_channelStep hs hstep⟩
    obtain ⟨final, reports, hrun⟩ := Loop.run_ok LoopState.Sound hstep he.sound
    unfold muxPass
    rw [hstart]
    dsimp only
    rw [hrun]
    exact ⟨_, rfl⟩

theorem eq_of_mem_reports {r : PassResult} (hpass : muxPass cfg input.toPassInput = .ok r)
    {c : Channel} {outcome outcome' : Outcome} (h : (c, outcome) ∈ r.reports)
    (h' : (c, outcome') ∈ r.reports) : outcome = outcome' := by
  obtain ⟨start, -, hrun, -⟩ := muxPass_eq_ok hpass
  have hnodup : (r.reports.map Prod.fst).Nodup := by
    rw [Loop.map_fst_run hrun]
    exact List.Nodup.of_map _ input.nodup_sortChannels
  exact congrArg Prod.snd (List.inj_on_of_nodup_map hnodup h h' rfl)

theorem step_of_meets {r : PassResult} (hpass : muxPass cfg input.toPassInput = .ok r)
    {c : Channel} {outcome : Outcome} (h : (c, outcome) ∈ r.reports) {s : LoopState}
    (hmeets : PassMeets cfg input.toPassInput c s) :
    ∃ s', channelStep cfg (input.mux.namespace_, input.mux.name) (muxPortLimit cfg input.mux).1 s c =
      .ok (s', outcome) := by
  obtain ⟨start, hstart, hrun, -⟩ := muxPass_eq_ok hpass
  obtain ⟨e, he⟩ := started_of_passStart hstart
  obtain ⟨s', outcome', hstep, hreport⟩ :=
    Loop.exists_step_of_turn hrun (turn_of_meets hstart hmeets)
  obtain rfl := input.eq_of_mem_reports hpass h hreport
  exact ⟨s', he.maxPorts ▸ hstep⟩

theorem exists_meets {r : PassResult} (hpass : muxPass cfg input.toPassInput = .ok r) {c : Channel}
    (hc : c ∈ input.channels) :
    ∃ s outcome, PassMeets cfg input.toPassInput c s ∧ (c, outcome) ∈ r.reports := by
  obtain ⟨start, hstart, hrun, -⟩ := muxPass_eq_ok hpass
  obtain ⟨s, s', outcome, hturn, -, hreport⟩ := Loop.exists_turn hrun (mem_sortChannels.mpr hc)
  exact ⟨s, outcome, ⟨start, hstart, hturn⟩, hreport⟩

theorem mem_channels_of_mem_reports {r : PassResult} (hpass : muxPass cfg input.toPassInput = .ok r)
    {c : Channel} {outcome : Outcome} (h : (c, outcome) ∈ r.reports) : c ∈ input.channels := by
  obtain ⟨start, -, hrun, -⟩ := muxPass_eq_ok hpass
  rw [← mem_sortChannels, ← Loop.map_fst_run hrun]
  exact List.mem_map_of_mem h

theorem exists_step {r : PassResult} (hpass : muxPass cfg input.toPassInput = .ok r) {c : Channel}
    {outcome : Outcome} (h : (c, outcome) ∈ r.reports) :
    ∃ s s', PassMeets cfg input.toPassInput c s ∧
      channelStep cfg (input.mux.namespace_, input.mux.name) (muxPortLimit cfg input.mux).1 s c =
        .ok (s', outcome) := by
  obtain ⟨s, -, hmeets, -⟩ :=
    input.exists_meets hpass (input.mem_channels_of_mem_reports hpass h)
  obtain ⟨s', hstep⟩ := input.step_of_meets hpass h hmeets
  exact ⟨s, s', hmeets, hstep⟩

end AdmittedPass

end SvcLbMux
