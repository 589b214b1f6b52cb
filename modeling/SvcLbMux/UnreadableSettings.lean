import SvcLbMux.NextPass
import SvcLbMux.StaticChannels

namespace SvcLbMux

open Py

variable {cfg : Config}

/-- The channel is served: its mux ports are in the mux Service, with nobody else on their
listeners, and so are its claims in the state, if that can be read. -/
structure Live (cfg : Config) (input : PassInput) (c : Channel)
    (explicitPorts : Dict String PortRequest) (served : List ResolvedPort) : Prop where
  mem : c ∈ input.channels
  servedAt : ServedAt cfg c explicitPorts served
  muxPorts : ∀ oldPorts, oldMuxPorts input.mux.ports = .ok oldPorts → ∀ p ∈ served,
    p.toMuxPort cfg c ∈ oldPorts ∧ ∀ m ∈ oldPorts, m.key = p.key → m.name = c.muxName cfg p.port
  persisted : (∃ state, (muxStore cfg input.mux).load input.configmap = .ok state) →
    Persisted cfg input c served

/-! ## What is reported, and what the pass works with instead -/

section Fallbacks

variable {mux : MuxService}

theorem muxPortLimit_of_error {error : ValueError} (h : requestedMaxPorts cfg mux = .error error) :
    muxPortLimit cfg mux = (some 0, [⟨"InvalidMaxPorts", error.message⟩]) := by
  unfold muxPortLimit gkeMaxPortsWarning effectiveMuxMaxPorts
  rw [h]
  cases isGkeLoadBalancerService mux with
  | true => rfl
  | false => rfl

theorem exceeds_of_error {error : ValueError} (h : requestedMaxPorts cfg mux = .error error)
    {c : Channel} (hports : c.ports ≠ []) (ports : Finset MuxPort) :
    wouldExceedMuxPortLimit ports c (muxPortLimit cfg mux).1 = true := by
  have hpos := List.length_pos_of_ne_nil hports
  rw [muxPortLimit_of_error h]
  refine decide_eq_true ?_
  change (ports.card + c.ports.length : Int) > 0
  omega

theorem muxPortRanges_of_error {error : ValueError} (h : requestedPortRange cfg mux = .error error) :
    muxPortRanges cfg mux = ([], [⟨"InvalidPortRange", error.message⟩]) := by
  rw [muxPortRanges, h]

/-- The events of a pass about the settings of its mux. -/
theorem muxEvents_of_muxPass {input : PassInput} {r : PassResult}
    (hpass : muxPass cfg input = .ok r) :
    ∃ storeEvents, r.muxEvents = (muxPortLimit cfg input.mux).2 ++
        ((muxPortRanges cfg input.mux).2 ++ storeEvents) ∧
      ∀ error, (muxStore cfg input.mux).load input.configmap = .error error →
        ⟨"PortAllocationStoreInvalid", error.message⟩ ∈ storeEvents := by
  obtain ⟨start, hstart, hrun, -⟩ := muxPass_eq_ok hpass
  have hevents : r.muxEvents = start.events := by
    simp only [muxPass, hstart, hrun, Except.ok.injEq] at hpass
    rw [← hpass]
  obtain ⟨e, he⟩ := started_of_passStart hstart
  simp only [passStart, he.oldPorts, he.recovered, buildMuxState, he.reserved, Except.map] at hstart
  rw [hevents]
  cases hload : (muxStore cfg input.mux).load input.configmap with
  | error error =>
    simp only [hload, Except.ok.injEq] at hstart
    refine ⟨[⟨"PortAllocationStoreInvalid", error.message⟩], by rw [← hstart], ?_⟩
    rintro _ ⟨⟩
    simp
  | ok state =>
    simp only [hload, Except.ok.injEq] at hstart
    exact ⟨[], by rw [← hstart, List.append_nil], by simp⟩

theorem ranges_eq_nil {input : PassInput} {start : PassStart} {e : StartEvidence}
    (he : Started cfg input start e)
    (h : (∃ error, requestedPortRange cfg input.mux = .error error) ∨
      ∃ error, (muxStore cfg input.mux).load input.configmap = .error error) : e.ranges = [] := by
  rcases he.loaded with ⟨-, hranges, -⟩ | ⟨hload, hranges, -⟩
  · exact hranges
  · rcases h with ⟨error, herror⟩ | ⟨error, herror⟩
    · rw [hranges, muxPortRanges_of_error herror]
    · rw [hload] at herror
      cases herror

end Fallbacks

/-! ## Owners -/

section Turns

variable {input : AdmittedPass} {start : PassStart} {e : StartEvidence} {r : PassResult}
  {c d : Channel} {explicitPorts : Dict String PortRequest} {served : List ResolvedPort}
  {s : LoopState} {outcome : Outcome}

/-- A live channel owns its listeners from the start, by its claims or, where they cannot be read,
by its mux ports. -/
theorem owned_of_live (hdigest : DigestInjectiveOn cfg input.channels)
    (he : Started cfg input.toPassInput start e)
    (hlive : Live cfg input.toPassInput c explicitPorts served) {p : ResolvedPort} (hp : p ∈ served) :
    (p.key, c.owner cfg p.port) ∈ start.loop.registry.holds := by
  rcases he.loaded with ⟨-, -, hstate, -⟩ | ⟨hload, -⟩
  · have hunclaimed : ((e.muxState input.toPassInput).portOwners cfg).get p.key = none := by
      cases howner : ((e.muxState input.toPassInput).portOwners cfg).get p.key with
      | none => rfl
      | some owner =>
        obtain ⟨key, claim, hget, -⟩ := MuxState.exists_claim_of_get_portOwners howner
        obtain ⟨-, listed, hlisted, -⟩ := MuxState.exists_mem_of_get_claims_init hget
        rw [hstate] at hlisted
        cases hlisted
    rw [mem_registry, he.get_portOwners, hunclaimed, Option.none_or]
    obtain ⟨hmem, halone⟩ := hlive.muxPorts _ he.oldPorts p hp
    have hport := mem_ports_of_mem hlive.servedAt hp
    refine get_collectExistingPortOwners_of_existing he.recovered (mem_sortChannels.mpr hlive.mem)
      hport ((channelPortClaims_eq_ok hlive.servedAt.claims).2 _ hport) ?_
      ((input.order.mem_toList _ _).mpr hmem) rfl
      fun m hm hkey => halone m ((input.order.mem_toList _ _).mp hm) hkey
    -- No other declared port has the name of this mux port.
    intro d hd q hq hname
    obtain ⟨hkey, -⟩ :=
      hdigest d (mem_sortChannels.mp hd) q hq c hlive.mem p.port hport hname
    obtain ⟨hns, hservice⟩ := Prod.mk.inj hkey
    rw [Channel.owner, Channel.owner, hname, hns, hservice]
  · exact owned_at_start he hlive.servedAt hlive.mem (hlive.persisted ⟨_, hload⟩) hp

theorem key_ne_of_live (hdigest : DigestInjectiveOn cfg input.channels)
    (hpass : muxPass cfg input.toPassInput = .ok r)
    (hlive : Live cfg input.toPassInput c explicitPorts served) {resolved : List ResolvedPort}
    (hreport : (d, .accepted resolved) ∈ r.reports) (hne : d ≠ c) {p q : ResolvedPort}
    (hp : p ∈ served) (hq : q ∈ resolved) : q.key ≠ p.key := by
  have hd := input.mem_channels_of_mem_reports hpass hreport
  obtain ⟨start, hstart, -⟩ := muxPass_eq_ok hpass
  obtain ⟨e, he⟩ := started_of_passStart hstart
  obtain ⟨s, s', hmeets, hstep⟩ := input.exists_step hpass hreport
  exact key_ne_of_accepted hlive.mem hd hne (acceptedTurn_of_step hstep).compatible
    (holds_at_turn hstart hmeets (owned_of_live hdigest he hlive hp)) hq

/-! ## Turns -/

theorem channelStep_of_exceeds (cfg : Config) (muxKey : String × String) {maxPorts : Option Int}
    (h : wouldExceedMuxPortLimit s.ports c maxPorts = true) :
    ∃ message, channelStep cfg muxKey maxPorts s c = .ok (s, .rejected (.portLimit message)) := by
  rw [channelStep, if_pos h]
  exact ⟨_, rfl⟩

theorem channelStep_of_unresolved {muxKey : String × String} {maxPorts : Option Int}
    (hfits : wouldExceedMuxPortLimit s.ports c maxPorts = false) {error : ValueError}
    (h : (processChannelPorts cfg c s.muxState).1 = .error error) :
    ∃ s', channelStep cfg muxKey maxPorts s c = .ok (s', .rejected (.invalidPortMapping error)) := by
  rw [channelStep, if_neg (by simp [hfits])]
  simp only [h]
  exact ⟨_, rfl⟩

theorem unresolved_without_ranges (hc : c.Admitted) (hs : s.Sound) (hranges : s.muxState.ranges = [])
    (hserved : ServedAt cfg c explicitPorts served) {p : ResolvedPort}
    (hp : Allocated explicitPorts served p) :
    ∃ error, (processChannelPorts cfg c s.muxState).1 = .error error := by
  cases hresolve : (processChannelPorts cfg c s.muxState).1 with
  | error error => exact ⟨error, rfl⟩
  | ok resolved =>
    obtain ⟨explicitPorts', hclaims, hports, hall⟩ := MuxState.resolve_spec hc hs.wellKeyed hresolve
    obtain rfl := Except.ok.inj (hserved.claims.symm.trans hclaims)
    obtain ⟨q, hq, hport⟩ := List.mem_map.mp (hports ▸ mem_ports_of_mem hserved hp.1)
    have hin := ((hall q hq).auto (by rw [hport]; exact hp.2)).inRange
    have hfixed : (processChannelPorts cfg c s.muxState).2.fixed = s.muxState.fixed :=
      MuxState.fixed_resolve
    change containsPort (processChannelPorts cfg c s.muxState).2.ranges q.muxPort = true at hin
    rw [MuxState.ranges_of_fixed hfixed, hranges] at hin
    simp [containsPort] at hin

theorem withdrawn_of_rejected (hdigest : DigestInjectiveOn cfg input.channels)
    (hpass : muxPass cfg input.toPassInput = .ok r) {rejection : Rejection}
    (hreport : (c, .rejected rejection) ∈ r.reports)
    (hserved : ServedAt cfg c explicitPorts served) :
    ∀ p ∈ served, p.toMuxPort cfg c ∉ r.muxPorts := by
  intro p hp hmem
  have hc := input.mem_channels_of_mem_reports hpass hreport
  obtain ⟨d, resolved, hreport', q, hq, hname⟩ :=
    accepted_of_mem_muxPorts hpass hmem length_muxName
  have hd := input.mem_channels_of_mem_reports hpass hreport'
  obtain ⟨hkey, -⟩ := hdigest c hc p.port (mem_ports_of_mem hserved hp) d hd q hq hname
  obtain rfl := input.eq_of_key_eq hc hd hkey
  cases input.eq_of_mem_reports hpass hreport hreport'

end Turns

/-! ## Passes -/

/-- A channel is skipped, and its mux ports are withdrawn. -/
def SkippedWith (cfg : Config) (r : PassResult) (c : Channel) (served : List ResolvedPort)
    (rejection : Rejection) : Prop :=
  (c, .rejected rejection) ∈ r.reports ∧ ∀ p ∈ served, p.toMuxPort cfg c ∉ r.muxPorts

section Live

variable {input : AdmittedPass} {r : PassResult} {c : Channel} {s : LoopState}
  {explicitPorts : Dict String PortRequest} {served : List ResolvedPort}

theorem skipped_of_step (hdigest : DigestInjectiveOn cfg input.channels)
    (hpass : muxPass cfg input.toPassInput = .ok r)
    (hlive : Live cfg input.toPassInput c explicitPorts served)
    (hmeets : PassMeets cfg input.toPassInput c s) {rejection : Rejection}
    (hstep : ∃ s', channelStep cfg (input.mux.namespace_, input.mux.name)
      (muxPortLimit cfg input.mux).1 s c = .ok (s', .rejected rejection)) :
    SkippedWith cfg r c served rejection := by
  obtain ⟨-, outcome, -, hreport⟩ := input.exists_meets hpass hlive.mem
  obtain ⟨s', hstep'⟩ := input.step_of_meets hpass hreport hmeets
  obtain ⟨s'', hstep⟩ := hstep
  obtain ⟨-, rfl⟩ := Prod.mk.inj (Except.ok.inj (hstep'.symm.trans hstep))
  exact ⟨hreport, withdrawn_of_rejected hdigest hpass hreport hlive.servedAt⟩

/-- A live channel without allocated ports is accepted if it fits the limit: its ports resolve in
every state, and it owns them. -/
theorem accepted_of_static (hdigest : DigestInjectiveOn cfg input.channels)
    (hpass : muxPass cfg input.toPassInput = .ok r)
    (hlive : Live cfg input.toPassInput c explicitPorts served)
    (hstatic : ∀ p, ¬ Allocated explicitPorts served p)
    (hmeets : PassMeets cfg input.toPassInput c s)
    (hfits : wouldExceedMuxPortLimit s.ports c (muxPortLimit cfg input.mux).1 = false) :
    (c, .accepted served) ∈ r.reports := by
  obtain ⟨start, hstart, -⟩ := muxPass_eq_ok hpass
  obtain ⟨e, he⟩ := started_of_passStart hstart
  obtain ⟨-, outcome, -, hreport⟩ := input.exists_meets hpass hlive.mem
  obtain ⟨s', hstep⟩ := input.step_of_meets hpass hreport hmeets
  have hresolve : processChannelPorts cfg c s.muxState = (.ok served, s.muxState) :=
    MuxState.resolve_eq_ok hlive.servedAt.claims hlive.servedAt.ports fun p hp =>
      ⟨fun hauto => absurd ⟨hp, hauto⟩ (hstatic p), hlive.servedAt.static p hp⟩
  have hcompat := compatible_of_owned fun p hp =>
    holds_at_turn hstart hmeets (owned_of_live hdigest he hlive hp)
  have hstays : ¬ TurnedAway cfg (muxPortLimit cfg input.mux).1 s c := by
    rintro (hexceeds | haway)
    · rw [hfits] at hexceeds
      cases hexceeds
    · exact haway served (by rw [hresolve]) hcompat
  rwa [accepted_of_not_turnedAway hstep hstays (by rw [hresolve])] at hreport

end Live

/-- Settings that cannot be read are reported, and nobody else is given a port of a live channel.
Without a limit every channel with ports is skipped; without the ranges or the state the channels
with allocated ports are, and the others keep their ports as long as they fit the limit. -/
theorem unreadable_settings_reassign_nothing (cfg : Config) (input : AdmittedPass) (r : PassResult)
    (hdigest : DigestInjectiveOn cfg input.channels)
    (hpass : muxPass cfg input.toPassInput = .ok r) :
    ((∀ error, requestedMaxPorts cfg input.mux = .error error →
        ⟨"InvalidMaxPorts", error.message⟩ ∈ r.muxEvents) ∧
      (∀ error, requestedPortRange cfg input.mux = .error error →
        ⟨"InvalidPortRange", error.message⟩ ∈ r.muxEvents) ∧
      ∀ error, (muxStore cfg input.mux).load input.configmap = .error error →
        ⟨"PortAllocationStoreInvalid", error.message⟩ ∈ r.muxEvents) ∧
    ∀ c explicitPorts served, Live cfg input.toPassInput c explicitPorts served →
      (∀ d resolved, (d, .accepted resolved) ∈ r.reports → d ≠ c → ∀ p ∈ served, ∀ q ∈ resolved,
        q.key ≠ p.key) ∧
      ((∃ error, requestedMaxPorts cfg input.mux = .error error) → c.ports ≠ [] →
        ∃ message, SkippedWith cfg r c served (.portLimit message)) ∧
      ((∃ error, requestedPortRange cfg input.mux = .error error) ∨
          (∃ error, (muxStore cfg input.mux).load input.configmap = .error error) →
        (∀ s, PassMeets cfg input.toPassInput c s →
          wouldExceedMuxPortLimit s.ports c (muxPortLimit cfg input.mux).1 = false) →
        ((∃ p, Allocated explicitPorts served p) →
          ∃ error, SkippedWith cfg r c served (.invalidPortMapping error)) ∧
        ((∀ p, ¬ Allocated explicitPorts served p) →
          (c, .accepted served) ∈ r.reports ∧ ∀ p ∈ served, p.toMuxPort cfg c ∈ r.muxPorts)) := by
  obtain ⟨storeEvents, hevents, hstoreEvents⟩ := muxEvents_of_muxPass hpass
  refine ⟨⟨fun error herror => ?_, fun error herror => ?_, fun error herror => ?_⟩,
    fun c explicitPorts served hlive => ?_⟩
  · simp [hevents, muxPortLimit_of_error herror]
  · simp [hevents, muxPortRanges_of_error herror]
  · simp [hevents, hstoreEvents error herror]
  obtain ⟨start, hstart, -⟩ := muxPass_eq_ok hpass
  obtain ⟨e, he⟩ := started_of_passStart hstart
  obtain ⟨s, -, hmeets, -⟩ := input.exists_meets hpass hlive.mem
  refine ⟨fun d resolved hd hne p hp q hq => key_ne_of_live hdigest hpass hlive hd hne hp hq,
    ?_, fun hunreadable hfits => ⟨?_, ?_⟩⟩
  · rintro ⟨error, herror⟩ hports
    obtain ⟨message, hmessage⟩ := channelStep_of_exceeds cfg (input.mux.namespace_, input.mux.name)
      (exceeds_of_error herror hports s.ports)
    exact ⟨message, skipped_of_step hdigest hpass hlive hmeets ⟨s, hmessage⟩⟩
  · -- The allocator has no range.
    rintro ⟨p, hp⟩
    obtain ⟨hs, hfixed⟩ := sound_of_meets hstart hmeets
    have hranges : s.muxState.ranges = [] := by
      rw [MuxState.ranges_of_fixed hfixed, he.loop]
      exact ranges_eq_nil he hunreadable
    obtain ⟨error, herror⟩ :=
      unresolved_without_ranges (input.admitted c hlive.mem) hs hranges hlive.servedAt hp
    exact ⟨error, skipped_of_step hdigest hpass hlive hmeets
      (channelStep_of_unresolved (hfits s hmeets) herror)⟩
  · intro hstatic
    have hreport := accepted_of_static hdigest hpass hlive hstatic hmeets (hfits s hmeets)
    exact ⟨hreport, fun p hp => mem_muxPorts_of_accepted hpass hreport hp⟩

/-- The channel `web` is served at its allocated port 9000, under these settings. -/
def settingsPass (maxPorts portRange : String) (configmap : ConfigMap) : AdmittedPass where
  mux := sampleMux [("svc-mux.nowake.ai/max-ports", maxPorts),
    ("svc-mux.nowake.ai/port-range", portRange)] [("07bb300", 9000)]
  channels := [autoWeb]
  configmap := some configmap
  order := sampleOrder
  admitted := by decide +kernel
  distinct := by decide +kernel

/-- The state of the mux is not JSON. -/
def notJsonPass : AdmittedPass := settingsPass "" "9000-9001" ⟨some "default/mux", .notJson⟩

theorem live_notJsonPass :
    Live sampleConfig notJsonPass.toPassInput autoWeb autoWebPorts autoWebServed where
  mem := by simp [notJsonPass, settingsPass]
  servedAt := ⟨by decide +kernel, rfl, by decide +kernel⟩
  muxPorts := by
    intro oldPorts hold
    obtain rfl := Except.ok.inj hold
    decide +kernel
  persisted := by
    rintro ⟨state, hstate⟩
    cases hstate

/-- The error is reported, `web` is skipped with an event, and its port is withdrawn. -/
theorem unreadable_settings_reassign_nothing_notJsonPass :
    ∃ r message, muxPass sampleConfig notJsonPass.toPassInput = .ok r ∧
      ⟨"PortAllocationStoreInvalid", message⟩ ∈ r.muxEvents ∧
      ∃ error, SkippedWith sampleConfig r autoWeb autoWebServed (.invalidPortMapping error) := by
  have hdigest : DigestInjectiveOn sampleConfig notJsonPass.channels := by
    unfold DigestInjectiveOn
    decide +kernel
  obtain ⟨r, hpass⟩ : ∃ r, muxPass sampleConfig notJsonPass.toPassInput = .ok r :=
    notJsonPass.muxPass_ok_iff.mpr (by decide +kernel)
  obtain ⟨⟨-, -, hevent⟩, hlives⟩ :=
    unreadable_settings_reassign_nothing sampleConfig notJsonPass r hdigest hpass
  obtain ⟨-, -, hskipped⟩ := hlives _ _ _ live_notJsonPass
  exact ⟨r, _, hpass, hevent _ rfl, (hskipped (Or.inr ⟨_, rfl⟩) fun s _ => rfl).1
    ⟨⟨⟨some "http", 80, some "TCP"⟩, 9000⟩, by simp [autoWebServed], by decide +kernel⟩⟩

/-- With settings that can be read, the pass changes nothing. With any one that cannot, the port of
`web` is withdrawn. -/
theorem live_port_withdrawn_settingsPass :
    (∃ r, muxPass sampleConfig (settingsPass "" "9000-9001" autoWebConfigmap).toPassInput = .ok r ∧
      (autoWeb, Outcome.accepted autoWebServed) ∈ r.reports ∧
      Fixpoint sampleConfig (settingsPass "" "9000-9001" autoWebConfigmap).toPassInput r) ∧
    ∀ input ∈ [settingsPass "x" "9000-9001" autoWebConfigmap,
        settingsPass "" "9001-9000" autoWebConfigmap,
        notJsonPass,
        settingsPass "" "9000-9001" { autoWebConfigmap with muxAnnotation := some "default/other" }],
      ∃ r, muxPass sampleConfig input.toPassInput = .ok r ∧ r.muxPorts = {placeholderMuxPort} := by
  constructor
  · decide +kernel
  · decide +kernel

end SvcLbMux
