import SvcLbMux.MalformedObjects
import SvcLbMux.PersistedClaims

namespace SvcLbMux

open Py

variable {cfg : Config}

/-- The ports that a channel is served at: one for each declared port, static ports being those
that it asks for. -/
structure ServedAt (cfg : Config) (c : Channel) (explicitPorts : Dict String PortRequest)
    (served : List ResolvedPort) : Prop where
  claims : channelPortClaims cfg c = .ok explicitPorts
  ports : served.map ResolvedPort.port = c.ports
  static : ∀ r ∈ served, explicitPorts.get r.port.portName ≠ some .auto →
    r.muxPort = requestedPort explicitPorts r.port ∧ 1 ≤ r.muxPort ∧ r.muxPort ≤ 65535

/-- The allocated ports among those that a channel is served at. -/
def Allocated (explicitPorts : Dict String PortRequest) (served : List ResolvedPort)
    (r : ResolvedPort) : Prop := r ∈ served ∧ explicitPorts.get r.port.portName = some .auto

/-- The channel owns its listeners, has the only claims on them and holds the allocated ones. -/
structure Secured (cfg : Config) (c : Channel) (explicitPorts : Dict String PortRequest)
    (served : List ResolvedPort) (s : LoopState) : Prop where
  owned : ∀ r ∈ served, (r.key, c.owner cfg r.port) ∈ s.registry.holds
  claimed : ∀ r ∈ served, s.muxState.SoleClaim c r
  held : ∀ r, Allocated explicitPorts served r → s.muxState.Held cfg c r

section Turns

variable {input : AdmittedPass} {muxKey : String × String} {maxPorts : Option Int}
  {s s' : LoopState} {c d : Channel} {outcome : Outcome} {explicitPorts : Dict String PortRequest}
  {served : List ResolvedPort}

theorem mem_ports_of_mem (h : ServedAt cfg c explicitPorts served) {r : ResolvedPort}
    (hr : r ∈ served) : r.port ∈ c.ports := h.ports ▸ List.mem_map_of_mem hr

theorem key_ne_of_accepted (hc : c ∈ input.channels) (hd : d ∈ input.channels) (hne : d ≠ c)
    {resolved : List ResolvedPort} (hcompat : s.registry.Compatible (requestsOf cfg d resolved))
    {r q : ResolvedPort} (hr : (r.key, c.owner cfg r.port) ∈ s.registry.holds)
    (hq : q ∈ resolved) : q.key ≠ r.key := by
  intro hkey
  have howner : c.owner cfg r.port = d.owner cfg q.port :=
    ((Registry.compatible_iff _ _).mp hcompat).1 hr ⟨q, hq, by rw [hkey]⟩
  exact hne (input.eq_of_key_eq hd hc
    (key_eq_of_owner_eq (input.admitted c hc) (input.admitted d hd) howner).symm)

theorem compatible_of_owned (h : ∀ r ∈ served, (r.key, c.owner cfg r.port) ∈ s.registry.holds) :
    s.registry.Compatible (requestsOf cfg c served) := by
  have hsub : requestsOf cfg c served ⊆ s.registry.holds := by
    rintro e ⟨r, hr, rfl⟩
    exact h r hr
  intro k o o' ho ho'
  rw [Set.union_eq_self_of_subset_right hsub] at ho ho'
  exact s.registry.functional ho ho'

theorem processChannelPorts_of_secured (hserved : ServedAt cfg c explicitPorts served)
    (hsecured : Secured cfg c explicitPorts served s) :
    processChannelPorts cfg c s.muxState = (.ok served, s.muxState) :=
  MuxState.resolve_eq_ok hserved.claims hserved.ports fun r hr =>
    ⟨fun hauto => hsecured.held r ⟨hr, hauto⟩, hserved.static r hr⟩

theorem soleClaim_step_ne (hs : s.Sound) (hserved : ServedAt cfg c explicitPorts served)
    (hsecured : Secured cfg c explicitPorts served s) (hc : c ∈ input.channels)
    (hd : d ∈ input.channels) (hne : d ≠ c)
    (h : channelStep cfg muxKey maxPorts s d = .ok (s', outcome)) {r : ResolvedPort}
    (hr : r ∈ served) : s'.muxState.SoleClaim c r := by
  have hkeys : ∀ p, d.claimKey p ≠ c.claimKey r.port := fun p =>
    input.claimKey_ne hc hd hne (mem_ports_of_mem hserved hr)
  have hprocessed : (processChannelPorts cfg d s.muxState).2.SoleClaim c r :=
    (hsecured.claimed r hr).after_resolve fun p _ => hkeys p
  obtain ⟨-, -, -, -, hstate⟩ | ⟨resolved, -, rfl, -, hcompat, -, -, -⟩ := channelStep_cases h
  · rw [hstate]
    split_ifs
    · exact hsecured.claimed r hr
    · exact hprocessed
  · obtain ⟨explicitPorts', -, -, -, hstate⟩ :=
      accepted_spec (input.admitted d hd) hs.wellKeyed hs.ranges h
    rw [hstate]
    exact hprocessed.after_record (fun q _ => hkeys q.port)
      fun q hq => key_ne_of_accepted hc hd hne hcompat (hsecured.owned r hr) hq

theorem soleClaim_step_self (hs : s.Sound) (hserved : ServedAt cfg c explicitPorts served)
    (hsecured : Secured cfg c explicitPorts served s) (hc : c ∈ input.channels)
    (h : channelStep cfg muxKey maxPorts s c = .ok (s', outcome)) {r : ResolvedPort}
    (hr : r ∈ served) : s'.muxState.SoleClaim c r := by
  have hresolve := processChannelPorts_of_secured hserved hsecured
  obtain ⟨-, -, -, -, hstate⟩ | ⟨resolved, -, rfl, hok, -, -, -, -⟩ := channelStep_cases h
  · rw [hstate, hresolve, ite_self]
    exact hsecured.claimed r hr
  · rw [hresolve] at hok
    obtain rfl := Except.ok.inj hok
    obtain ⟨-, -, -, -, hstate⟩ := accepted_spec (input.admitted c hc) hs.wellKeyed hs.ranges h
    have hnodup := MuxState.nodup_claimKeys (input.admitted c hc)
      (channelPortClaims_eq_ok hserved.claims).2 hserved.ports
    rw [hstate, hresolve]
    refine ⟨⟨_, MuxState.get_claims_recordResolved hnodup hr, MuxState.listener_recordedClaim r⟩, ?_⟩
    intro key claim hget hl
    rcases recorded_or_kept hnodup hget with ⟨q, hq, rfl, rfl⟩ | hget
    · rw [MuxState.listener_recordedClaim] at hl
      obtain ⟨claim, hget, hl'⟩ := (hsecured.claimed q hq).claimed
      exact (hsecured.claimed r hr).alone _ claim hget (hl'.trans hl)
    · exact (hsecured.claimed r hr).alone key claim hget hl

theorem secured_step (hs : s.Sound) (hserved : ServedAt cfg c explicitPorts served)
    (hsecured : Secured cfg c explicitPorts served s) (hc : c ∈ input.channels)
    (hd : d ∈ input.channels) (h : channelStep cfg muxKey maxPorts s d = .ok (s', outcome)) :
    Secured cfg c explicitPorts served s' := by
  have hclaimed : ∀ r ∈ served, s'.muxState.SoleClaim c r := fun r hr => by
    rcases eq_or_ne d c with rfl | hne
    · exact soleClaim_step_self hs hserved hsecured hc h hr
    · exact soleClaim_step_ne hs hserved hsecured hc hd hne h hr
  exact ⟨fun r hr => holds_subset_channelStep h (hsecured.owned r hr), hclaimed, fun r hr =>
    MuxState.held_of_fixed (hsecured.held r hr) (fixed_channelStep h) (hclaimed r hr.1)⟩

/-- A secured channel that fits the limit is accepted at its turn, at the ports it is served at. -/
theorem accepted_of_secured (hserved : ServedAt cfg c explicitPorts served)
    (hsecured : Secured cfg c explicitPorts served s)
    (hlimit : wouldExceedMuxPortLimit s.ports c maxPorts = false)
    (h : channelStep cfg muxKey maxPorts s c = .ok (s', outcome)) : outcome = .accepted served := by
  have hresolve := processChannelPorts_of_secured hserved hsecured
  refine accepted_of_not_turnedAway h ?_ (by rw [hresolve])
  rintro (hexceed | haway)
  · rw [hlimit] at hexceed
    cases hexceed
  · exact haway served (by rw [hresolve]) (compatible_of_owned hsecured.owned)

end Turns

/-! ## Whole passes -/

section Passes

variable {input : AdmittedPass} {start : PassStart} {e : StartEvidence} {c : Channel}
  {explicitPorts : Dict String PortRequest} {served : List ResolvedPort}

/-- A channel that is secured at the start of a pass is secured as far as the loop comes. -/
theorem secured_of_run (he : Started cfg input.toPassInput start e)
    (hserved : ServedAt cfg c explicitPorts served) (hc : c ∈ input.channels)
    (hsecured : Secured cfg c explicitPorts served start.loop) {channels : List Channel}
    (hsub : channels ⊆ sortChannels input.channels) {s : LoopState}
    {reports : List (Channel × Outcome)}
    (hrun : Loop.run (channelStep cfg (input.mux.namespace_, input.mux.name) start.maxPorts)
      channels start.loop = .ok (s, reports)) : Secured cfg c explicitPorts served s := by
  refine (Loop.run_invariant (fun s => s.Sound ∧ Secured cfg c explicitPorts served s)
    ⟨he.sound, hsecured⟩ ?_ hrun).2
  rintro s d s' outcome hd ⟨hs, hsec⟩ hstep
  exact ⟨sound_channelStep hs hstep,
    secured_step hs hserved hsec hc (mem_sortChannels.mp (hsub hd)) hstep⟩

/-- A channel that is secured at the start of a pass, and fits the limit at its turn, is accepted. -/
theorem accepted_in_pass {r : PassResult} (hpass : muxPass cfg input.toPassInput = .ok r)
    (hstart : passStart cfg input.toPassInput = .ok start)
    (hserved : ServedAt cfg c explicitPorts served) (hc : c ∈ input.channels)
    (hsecured : Secured cfg c explicitPorts served start.loop)
    (hlimit : ∀ s, PassMeets cfg input.toPassInput c s →
      wouldExceedMuxPortLimit s.ports c (muxPortLimit cfg input.mux).1 = false) :
    (c, Outcome.accepted served) ∈ r.reports := by
  obtain ⟨e, he⟩ := started_of_passStart hstart
  obtain ⟨s, outcome, hmeets, hreport⟩ := input.exists_meets hpass hc
  obtain ⟨s', hstep⟩ := input.step_of_meets hpass hreport hmeets
  obtain ⟨before, after, log, hsplit, hrun⟩ := turn_of_meets hstart hmeets
  have hsecured' := secured_of_run he hserved hc hsecured
    (hsplit ▸ List.subset_append_left before (c :: after)) hrun
  rwa [accepted_of_secured hserved hsecured' (hlimit s hmeets) hstep] at hreport

theorem holds_at_turn (hstart : passStart cfg input.toPassInput = .ok start) {d : Channel}
    {s : LoopState} (hmeets : PassMeets cfg input.toPassInput d s) {key : PortKey} {owner : String}
    (h : (key, owner) ∈ start.loop.registry.holds) : (key, owner) ∈ s.registry.holds := by
  obtain ⟨before, after, log, -, hrun⟩ := turn_of_meets hstart hmeets
  exact Loop.run_invariant (fun s => (key, owner) ∈ s.registry.holds) h
    (fun _ _ _ _ _ hs hstep => holds_subset_channelStep hstep hs) hrun

end Passes

/-! ## Persisted claims -/

/-- The store works, and lists a claim for every port that the channel is served at. -/
structure Persisted (cfg : Config) (input : PassInput) (c : Channel) (served : List ResolvedPort) :
    Prop where
  load : ∃ state, (muxStore cfg input.mux).load input.configmap = .ok state
  claimed : ∀ r ∈ served, ∃ claim, (claimsByKey (storedClaims input.configmap)).get
    (c.claimKey r.port) = some claim ∧ claim.listener = some r.key
  alone : ∀ claim ∈ storedClaims input.configmap, ∀ r ∈ served, claim.listener = some r.key →
    claim.ref.key = c.claimKey r.port

theorem persisted_of_listenersDistinct {input : PassInput} {c : Channel}
    {served : List ResolvedPort}
    (hload : ∃ state, (muxStore cfg input.mux).load input.configmap = .ok state)
    (hdistinct : MuxState.ListenersDistinct (storedClaims input.configmap))
    (hclaimed : ∀ r ∈ served, ∃ claim, (claimsByKey (storedClaims input.configmap)).get
      (c.claimKey r.port) = some claim ∧ claim.listener = some r.key) :
    Persisted cfg input c served := by
  refine ⟨hload, hclaimed, fun claim hmem r hr hl => ?_⟩
  obtain ⟨claim', hget, hl'⟩ := hclaimed r hr
  obtain ⟨listed, hlisted, hkey, rfl⟩ := MuxState.exists_mem_of_get_claimsByKey hget
  rw [MuxState.listener_normalizeClaim] at hl'
  rw [MuxState.eq_of_listenersDistinct hdistinct hmem hlisted hl hl', hkey]

section Persisted

variable {input : AdmittedPass} {start : PassStart} {e : StartEvidence} {c : Channel}
  {explicitPorts : Dict String PortRequest} {served : List ResolvedPort}

theorem state_of_load (he : Started cfg input.toPassInput start e)
    (hload : ∃ state, (muxStore cfg input.mux).load input.configmap = .ok state) :
    (muxStore cfg input.mux).load input.configmap = .ok e.state ∧
      e.ranges = (muxPortRanges cfg input.mux).1 ∧ start.store = some (muxStore cfg input.mux) := by
  rcases he.loaded with ⟨⟨err, herr⟩, -⟩ | h
  · obtain ⟨state, hstate⟩ := hload
    rw [herr] at hstate
    cases hstate
  · exact h

theorem claims_at_start (he : Started cfg input.toPassInput start e)
    (hserved : ServedAt cfg c explicitPorts served) (hc : c ∈ input.channels)
    (hpersisted : Persisted cfg input.toPassInput c served) {r : ResolvedPort} (hr : r ∈ served) :
    start.loop.muxState.SoleClaim c r := by
  rw [he.loop]
  have hstored := stateClaims_of_load (state_of_load he hpersisted.load).1
  have hp := mem_ports_of_mem hserved hr
  have hactive : c.claimKey r.port ∈ activeClaimKeys (sortChannels input.channels) :=
    mem_activeClaimKeys.mpr ⟨c, mem_sortChannels.mpr hc, r.port, hp,
      (channelPortClaims_eq_ok hserved.claims).2 _ hp, rfl⟩
  constructor
  · obtain ⟨claim, hget, hl⟩ := hpersisted.claimed r hr
    refine ⟨claim, ?_, hl⟩
    rw [StartEvidence.muxState, MuxState.get_claims_init, if_pos hactive, hstored]
    exact hget
  · intro key claim hget hl
    obtain ⟨-, listed, hlisted, rfl, rfl⟩ := MuxState.exists_mem_of_get_claims_init hget
    rw [MuxState.listener_normalizeClaim] at hl
    rw [hstored] at hlisted
    exact hpersisted.alone listed hlisted r hr hl

/-- A persisted claim makes its channel the owner, whatever was recovered. -/
theorem owned_at_start (he : Started cfg input.toPassInput start e)
    (hserved : ServedAt cfg c explicitPorts served) (hc : c ∈ input.channels)
    (hpersisted : Persisted cfg input.toPassInput c served) {r : ResolvedPort} (hr : r ∈ served) :
    (r.key, c.owner cfg r.port) ∈ start.loop.registry.holds := by
  have hclaimed := claims_at_start he hserved hc hpersisted hr
  rw [he.loop] at hclaimed
  obtain ⟨⟨claim, hget, hl⟩, halone⟩ := hclaimed
  obtain ⟨owner, howner⟩ :=
    Option.ne_none_iff_exists'.mp (MuxState.get_portOwners_ne_none cfg hget hl)
  obtain ⟨key, claim', hget', hl', rfl⟩ := MuxState.exists_claim_of_get_portOwners howner
  obtain rfl := halone key claim' hget' hl'
  rw [mem_registry, he.get_portOwners, howner, Option.some_or,
    (claimOwner_of_claimKey cfg MuxState.wellKeyed_init (input.admitted c hc)
      (mem_ports_of_mem hserved hr) hget').1]

end Persisted

/-! ## Static channels -/

def ResolvesTo (cfg : Config) (input : PassInput) (c : Channel) (key : PortKey) : Prop :=
  ∃ s resolved, PassMeets cfg input c s ∧ (processChannelPorts cfg c s.muxState).1 = .ok resolved ∧
    ∃ r ∈ resolved, r.key = key

/-- A valid channel with static ports only, whose claims are persisted, is accepted at exactly
these ports, and whoever else resolves to one of its listeners is rejected; this is so exactly in
the iterations that do not raise over what they read. -/
theorem persisted_static_claims_win_iff (cfg : Config) (input : AdmittedPass)
    (memoEndpoints : MemoEndpoints) (sources : DebugSources) (st : DebugState) (c : Channel)
    (hc : c ∈ input.channels) (explicitPorts : Dict String PortRequest)
    (served : List ResolvedPort) (hserved : ServedAt cfg c explicitPorts served)
    (hstatic : ∀ p ∈ c.ports, explicitPorts.get p.portName ≠ some .auto)
    (hlimit : (muxPortLimit cfg input.mux).1 = none)
    (hload : ∃ state, (muxStore cfg input.mux).load input.configmap = .ok state)
    (hdistinct : MuxState.ListenersDistinct (storedClaims input.configmap))
    (hclaimed : ∀ r ∈ served, ∃ claim, (claimsByKey (storedClaims input.configmap)).get
      (c.claimKey r.port) = some claim ∧ claim.listener = some r.key) :
    (∃ r, (daemonIteration cfg input.toPassInput memoEndpoints sources st).1 = .ok r ∧
      (c, Outcome.accepted served) ∈ r.reports ∧
      ∀ d outcome, (d, outcome) ∈ r.reports → d ≠ c →
        (∃ p ∈ served, ResolvesTo cfg input.toPassInput d p.key) →
        ∃ rejection, outcome = .rejected rejection) ↔
      Digestible cfg input.toPassInput memoEndpoints := by
  rw [← daemonIteration_ok_iff input sources st]
  constructor
  · rintro ⟨r, hr, -⟩
    exact ⟨r, hr⟩
  · -- The persisted claims secure the channel; a static port has no allocation to secure.
    rintro ⟨r, hr⟩
    have hpass := muxPass_of_daemonIteration hr
    obtain ⟨start, hstart, hrun, -⟩ := muxPass_eq_ok hpass
    obtain ⟨e, he⟩ := started_of_passStart hstart
    have hpersisted := persisted_of_listenersDistinct hload hdistinct hclaimed
    have howned : ∀ p ∈ served, (p.key, c.owner cfg p.port) ∈ start.loop.registry.holds :=
      fun p hp => owned_at_start he hserved hc hpersisted hp
    have hsecured : Secured cfg c explicitPorts served start.loop :=
      ⟨howned, fun p hp => claims_at_start he hserved hc hpersisted hp,
        fun p hp => absurd hp.2 (hstatic _ (mem_ports_of_mem hserved hp.1))⟩
    refine ⟨r, hr, accepted_in_pass hpass hstart hserved hc hsecured ?_, ?_⟩
    · intro s _
      rw [hlimit]
      rfl
    · -- Whoever else were accepted on such a listener would own it next to the channel.
      rintro d outcome hd hne ⟨p, hp, s, resolved, hmeets, hresolve, q, hq, hkey⟩
      obtain ⟨s', hstep⟩ := input.step_of_meets hpass hd hmeets
      obtain ⟨-, hrejected, -⟩ | ⟨resolved', -, rfl, hresolve', hcompat, -⟩ :=
        channelStep_cases hstep
      · exact hrejected
      · obtain rfl := Except.ok.inj (hresolve.symm.trans hresolve')
        exact absurd hkey (key_ne_of_accepted hc (input.mem_channels_of_mem_reports hpass hd) hne
          hcompat (holds_at_turn hstart hmeets (howned p hp)) hq)

/-- The channel `web` holds its claim on port 80, and `api` asks for the same port. -/
def contestedPass : AdmittedPass where
  mux := sampleMux [] [("placeholder", 101)]
  channels := [sampleChannel "web" "http" 80 [], sampleChannel "api" "http" 80 []]
  configmap := some (sampleConfigmap [sampleClaim "web" 80 80 "static"])
  order := sampleOrder
  admitted := by decide +kernel
  distinct := by decide +kernel

/-- What `web` is served at. -/
def webServed : List ResolvedPort := [⟨⟨some "http", 80, some "TCP"⟩, 80⟩]

theorem webServed_servedAt :
    ServedAt sampleConfig (sampleChannel "web" "http" 80 []) Dict.empty webServed :=
  ⟨by decide +kernel, rfl, by decide +kernel⟩

theorem persisted_static_claims_win_contestedPass :
    ∃ r, (daemonIteration sampleConfig contestedPass.toPassInput (apiEndpoints (some "http"))
        sampleSources DebugState.empty).1 = .ok r ∧
      (sampleChannel "web" "http" 80 [], Outcome.accepted webServed) ∈ r.reports := by
  have hdigestible : Digestible sampleConfig contestedPass.toPassInput (apiEndpoints (some "http")) :=
    digestible_of_readable (by decide +kernel) (by decide +kernel) (by decide +kernel)
  obtain ⟨r, hr, haccepted, -⟩ := (persisted_static_claims_win_iff sampleConfig contestedPass
    (apiEndpoints (some "http")) sampleSources DebugState.empty (sampleChannel "web" "http" 80 [])
    (by simp [contestedPass]) Dict.empty webServed webServed_servedAt (by decide +kernel)
    (by decide +kernel) ⟨_, rfl⟩ (by decide +kernel) (by decide +kernel)).mpr hdigestible
  exact ⟨r, hr, haccepted⟩

/-- As before, but `api` carries a `ports` annotation with an item that has no number. -/
def malformedPass : AdmittedPass where
  mux := sampleMux [] [("placeholder", 101)]
  channels := [sampleChannel "web" "http" 80 [],
    sampleChannel "api" "http" 80 [("svc-mux.nowake.ai/ports", "http:81->zz")]]
  configmap := some (sampleConfigmap [sampleClaim "web" 80 80 "static"])
  order := sampleOrder
  admitted := by decide +kernel
  distinct := by decide +kernel

theorem persisted_static_claims_lose_malformedPass :
    ServedAt sampleConfig (sampleChannel "web" "http" 80 []) Dict.empty webServed ∧
      (muxPortLimit sampleConfig malformedPass.mux).1 = none ∧
      (∃ state, (muxStore sampleConfig malformedPass.mux).load malformedPass.configmap = .ok state) ∧
      MuxState.ListenersDistinct (storedClaims malformedPass.configmap) ∧
      (∀ r ∈ webServed, ∃ claim, (claimsByKey (storedClaims malformedPass.configmap)).get
        ((sampleChannel "web" "http" 80 []).claimKey r.port) = some claim ∧
          claim.listener = some r.key) ∧
      ¬ ∃ r, (daemonIteration sampleConfig malformedPass.toPassInput (apiEndpoints (some "http"))
          sampleSources DebugState.empty).1 = .ok r ∧
        (sampleChannel "web" "http" 80 [], Outcome.accepted webServed) ∈ r.reports :=
  ⟨webServed_servedAt, by decide +kernel, ⟨_, rfl⟩, by decide +kernel, by decide +kernel,
    by decide +kernel⟩

end SvcLbMux
