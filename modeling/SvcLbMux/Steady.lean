import SvcLbMux.Incumbents

namespace SvcLbMux

open Py

variable {cfg : Config}

/-- The channel is served at these ports, and the claims, the port range, the mux Service and its own
annotation agree with it. -/
structure Steady (cfg : Config) (input : PassInput) (c : Channel)
    (explicitPorts : Dict String PortRequest) (served : List ResolvedPort) : Prop where
  mem : c ∈ input.channels
  servedAt : ServedAt cfg c explicitPorts served
  persisted : Persisted cfg input c served
  inRange : ∀ r, Allocated explicitPorts served r →
    containsPort (muxPortRanges cfg input.mux).1 r.muxPort = true
  muxPorts : ∀ oldPorts, oldMuxPorts input.mux.ports = .ok oldPorts → ∀ m ∈ oldPorts, ∀ r ∈ served,
    m.key = r.key → m.name = c.muxName cfg r.port
  recorded : c.annotations.get cfg.annotationPorts = some (portsAnnotationOf served)

/-- No channel asks for an allocated port of this one by its number. -/
def Unrequested (cfg : Config) (channels : List Channel) (explicitPorts : Dict String PortRequest)
    (served : List ResolvedPort) : Prop :=
  ∀ r, Allocated explicitPorts served r → ∀ d ∈ channels, ¬ StaticallyRequests cfg d r.key

section Start

variable {input : AdmittedPass} {start : PassStart} {e : StartEvidence} {c : Channel}
  {explicitPorts : Dict String PortRequest} {served : List ResolvedPort}

theorem ports_inRange (h : Steady cfg input.toPassInput c explicitPorts served) {r : ResolvedPort}
    (hr : r ∈ served) : 1 ≤ r.muxPort ∧ r.muxPort ≤ 65535 := by
  by_cases hauto : explicitPorts.get r.port.portName = some .auto
  · exact rangesValid_muxPortRanges _ (h.inRange r ⟨hr, hauto⟩)
  · exact (h.servedAt.static r hr hauto).2

/-- The annotation of a served channel lists exactly the listeners that it is served at. -/
theorem mem_annotatedListeners_served (hc : c.Admitted) (hserved : ServedAt cfg c explicitPorts served)
    (hrange : ∀ r ∈ served, 1 ≤ r.muxPort ∧ r.muxPort ≤ 65535)
    (hrecorded : c.annotation cfg.annotationPorts = portsAnnotationOf served) :
    ∃ mappings, parsePortMappings (c.annotation cfg.annotationPorts) = .ok mappings ∧
      ∀ key owner, (key, owner) ∈ annotatedListeners cfg c mappings ↔
        ∃ r ∈ served, r.key = key ∧ c.owner cfg r.port = owner := by
  have hnamed := (channelPortClaims_eq_ok hserved.claims).2
  obtain ⟨mappings, hparse, htext⟩ :=
    MuxState.parsePortMappings_portsAnnotationOf hc hnamed hserved.ports hrange
  refine ⟨mappings, by rw [hrecorded, hparse], fun key owner => ?_⟩
  rw [annotatedListeners, ← hserved.ports]
  simp only [List.mem_filterMap, List.mem_map, exists_exists_and_eq_and]
  refine exists_congr fun r => and_congr_right fun hr => ?_
  rw [if_neg (by simp [hnamed _ (mem_ports_of_mem hserved hr)]), htext r hr]
  simp only [validatePortText_str cfg.annotationPorts (hrange r hr), Option.some.injEq,
    Prod.mk.injEq]
  rfl

theorem owner_of_recovered (h : Steady cfg input.toPassInput c explicitPorts served)
    (he : Started cfg input.toPassInput start e) {r : ResolvedPort} (hr : r ∈ served)
    {owner : String} (hget : e.recovered.get r.key = some owner) : owner = c.owner cfg r.port := by
  have hp := mem_ports_of_mem h.servedAt hr
  have hnamed := (channelPortClaims_eq_ok h.servedAt.claims).2
  have hsame : c.annotation cfg.annotationPorts = portsAnnotationOf served := by
    rw [Channel.annotation, h.recorded]
    rfl
  obtain ⟨mappings, hparse, hlisted⟩ := mem_annotatedListeners_served (input.admitted c h.mem)
    h.servedAt (fun q hq => ports_inRange h hq) hsame
  refine eq_owner_of_get_collectExistingPortOwners he.recovered (mem_sortChannels.mpr h.mem) hp
    (hnamed _ hp) (fun m hm hkey => ?_) hparse ((hlisted _ _).mpr ⟨r, hr, rfl, rfl⟩) hget
  exact h.muxPorts _ he.oldPorts m ((input.order.mem_toList _ m).mp hm) r hr hkey

/-- A steady channel starts the loop secured, unless another one asks for its allocated ports. -/
theorem secured_of_steady (h : Steady cfg input.toPassInput c explicitPorts served)
    (hunrequested : Unrequested cfg input.channels explicitPorts served)
    (he : Started cfg input.toPassInput start e) : Secured cfg c explicitPorts served start.loop := by
  have hclaimed : ∀ r ∈ served, start.loop.muxState.SoleClaim c r :=
    fun r hr => claims_at_start he h.servedAt h.mem h.persisted hr
  refine ⟨fun r hr => owned_at_start he h.servedAt h.mem h.persisted hr, hclaimed, fun r hr => ?_⟩
  refine ⟨hclaimed r hr.1, ?_, ?_, ?_⟩
  · rw [he.loop]
    change containsPort e.ranges r.muxPort = true
    rw [(state_of_load he h.persisted.load).2.1]
    exact h.inRange r hr
  · rw [he.loop]
    change r.key ∉ e.reservedPorts
    rw [mem_collectStaticPortClaims he.reserved]
    rintro ⟨d, hd, hstatic⟩
    exact hunrequested r hr d (mem_sortChannels.mp hd) hstatic
  · rw [he.loop]
    exact fun owner hget => owner_of_recovered h he hr.1 hget

theorem turn_of_accepted {r : PassResult} (hpass : muxPass cfg input.toPassInput = .ok r)
    (hstart : passStart cfg input.toPassInput = .ok start)
    (hreport : (c, Outcome.accepted served) ∈ r.reports) :
    ∃ explicitPorts, ∃ st : MuxState, ServedAt cfg c explicitPorts served ∧
      st.fixed = start.loop.muxState.fixed ∧
      ∀ p, Allocated explicitPorts served p → st.Held cfg c p := by
  have hc := input.mem_channels_of_mem_reports hpass hreport
  obtain ⟨s, s', hmeets, hstep⟩ := input.exists_step hpass hreport
  obtain ⟨hs, hfixed⟩ := sound_of_meets hstart hmeets
  obtain ⟨explicitPorts, hclaims, hports, hall, -⟩ :=
    accepted_spec (input.admitted c hc) hs.wellKeyed hs.ranges hstep
  exact ⟨explicitPorts, (processChannelPorts cfg c s.muxState).2,
    ⟨hclaims, hports, fun p hp => (hall p hp).static⟩, MuxState.fixed_resolve.trans hfixed,
    fun p hp => (hall p hp.1).auto hp.2⟩

theorem unrequested_of_accepted {r : PassResult} (hpass : muxPass cfg input.toPassInput = .ok r)
    (hserved : ServedAt cfg c explicitPorts served)
    (haccepted : (c, Outcome.accepted served) ∈ r.reports) :
    Unrequested cfg input.channels explicitPorts served := by
  obtain ⟨start, hstart, -⟩ := muxPass_eq_ok hpass
  obtain ⟨e, he⟩ := started_of_passStart hstart
  obtain ⟨explicitPorts', st, hserved', hfixed, hheld⟩ := turn_of_accepted hpass hstart haccepted
  obtain rfl := Except.ok.inj (hserved.claims.symm.trans hserved'.claims)
  intro p hp d hd hstatic
  have hunreserved := (hheld p hp).unreserved
  rw [MuxState.reservedPorts_of_fixed hfixed, he.loop] at hunreserved
  exact hunreserved ((mem_collectStaticPortClaims he.reserved _).mpr
    ⟨d, mem_sortChannels.mpr hd, hstatic⟩)

end Start

/-! ## The port limit -/

/-- A channel with the ports that it is served at. -/
structure Incumbent where
  channel : Channel
  explicitPorts : Dict String PortRequest
  served : List ResolvedPort

/-- Whatever other channels come, an iteration serves the steady channels as before exactly when it
can digest what it reads, nobody asks for their allocated ports, and each of them fits the limit when
its turn comes. -/
theorem steady_channels_served_iff (cfg : Config) (input : AdmittedPass)
    (memoEndpoints : MemoEndpoints) (sources : DebugSources) (st : DebugState)
    (incumbents : List Incumbent)
    (hsteady : ∀ i ∈ incumbents, Steady cfg input.toPassInput i.channel i.explicitPorts i.served) :
    (∃ r, (daemonIteration cfg input.toPassInput memoEndpoints sources st).1 = .ok r ∧
      ∀ i ∈ incumbents, (i.channel, Outcome.accepted i.served) ∈ r.reports) ↔
    Digestible cfg input.toPassInput memoEndpoints ∧
      (∀ i ∈ incumbents, Unrequested cfg input.channels i.explicitPorts i.served) ∧
      ∀ i ∈ incumbents, ∀ s, PassMeets cfg input.toPassInput i.channel s →
        wouldExceedMuxPortLimit s.ports i.channel (muxPortLimit cfg input.mux).1 = false := by
  rw [← daemonIteration_ok_iff input sources st]
  constructor
  · rintro ⟨r, hr, haccepted⟩
    have hpass := muxPass_of_daemonIteration hr
    refine ⟨⟨r, hr⟩, fun i hi => ?_, fun i hi s hmeets => ?_⟩
    · exact unrequested_of_accepted hpass (hsteady i hi).servedAt (haccepted i hi)
    · obtain ⟨s', hstep⟩ := input.step_of_meets hpass (haccepted i hi) hmeets
      exact (acceptedTurn_of_step hstep).fits
  · -- Each incumbent is secured at the start, so only the limit can turn it away.
    rintro ⟨⟨r, hr⟩, hunrequested, hfits⟩
    have hpass := muxPass_of_daemonIteration hr
    obtain ⟨start, hstart, -⟩ := muxPass_eq_ok hpass
    obtain ⟨e, he⟩ := started_of_passStart hstart
    refine ⟨r, hr, fun i hi => ?_⟩
    exact accepted_in_pass hpass hstart (hsteady i hi).servedAt (hsteady i hi).mem
      (secured_of_steady (hsteady i hi) (hunrequested i hi) he) (hfits i hi)

/-- The channel `web` as it is when it is served at port 80. -/
def steadyWeb : Channel := sampleChannel "web" "http" 80 [("svc-mux.nowake.ai/ports", "http:80->80")]

/-- The channel `web` is served at port 80; `a` comes before it in the order of channels. -/
def limitedPass (maxPorts : String) : AdmittedPass where
  mux := sampleMux [("svc-mux.nowake.ai/max-ports", maxPorts)] [("07bb300", 80)]
  channels := [steadyWeb, sampleChannel "a" "http" 81 []]
  configmap := some (sampleConfigmap [sampleClaim "web" 80 80 "static"])
  order := sampleOrder
  admitted := by decide +kernel
  distinct := by decide +kernel

theorem steady_limitedPass (maxPorts : String) :
    Steady sampleConfig (limitedPass maxPorts).toPassInput steadyWeb Dict.empty webServed where
  mem := by simp [limitedPass]
  servedAt := ⟨by decide +kernel, rfl, by decide +kernel⟩
  persisted := persisted_of_listenersDistinct ⟨_, rfl⟩
    (by change MuxState.ListenersDistinct [_]; decide +kernel)
    (by
      change ∀ r ∈ webServed, ∃ claim, (claimsByKey [sampleClaim "web" 80 80 "static"]).get
        (steadyWeb.claimKey r.port) = some claim ∧ claim.listener = some r.key
      decide +kernel)
  inRange := by
    rintro r ⟨-, hauto⟩
    simp at hauto
  muxPorts := by
    intro oldPorts hold
    obtain rfl := Except.ok.inj hold
    decide +kernel
  recorded := by decide +kernel

/-- With room for two ports both channels are served. -/
theorem steady_channels_served_limitedPass :
    ∃ s, PassMeets sampleConfig (limitedPass "2").toPassInput steadyWeb s ∧
      wouldExceedMuxPortLimit s.ports steadyWeb (some 2) = false := by
  obtain ⟨r, hr, haccepted⟩ : ∃ r, (daemonIteration sampleConfig (limitedPass "2").toPassInput
      Dict.empty sampleSources DebugState.empty).1 = .ok r ∧
      (steadyWeb, Outcome.accepted webServed) ∈ r.reports := by decide +kernel
  have hconditions := (steady_channels_served_iff sampleConfig (limitedPass "2") Dict.empty
    sampleSources DebugState.empty [⟨steadyWeb, Dict.empty, webServed⟩]
    (by simpa using steady_limitedPass "2")).mp ⟨r, hr, by simpa using haccepted⟩
  have hpass := muxPass_of_daemonIteration hr
  obtain ⟨s, -, hmeets, -⟩ :=
    (limitedPass "2").exists_meets hpass ((limitedPass "2").mem_channels_of_mem_reports hpass haccepted)
  exact ⟨s, hmeets, hconditions.2.2 ⟨steadyWeb, Dict.empty, webServed⟩ (by simp) s hmeets⟩

/-- With room for one port the newcomer takes it. -/
theorem steady_channel_skipped_limitedPass :
    Steady sampleConfig (limitedPass "1").toPassInput steadyWeb Dict.empty webServed ∧
      (muxPortLimit sampleConfig (limitedPass "1").mux).1 = some (webServed.length : Int) ∧
      (∃ r, (daemonIteration sampleConfig (limitedPass "1").toPassInput Dict.empty sampleSources
          DebugState.empty).1 = .ok r ∧
        (steadyWeb, Outcome.rejected (.portLimit ("mux default/mux is limited to 1 port(s); " ++
          "skipping channel would exceed the GKE Service LoadBalancer port limit"))) ∈ r.reports) ∧
      ¬ ∃ r, (daemonIteration sampleConfig (limitedPass "1").toPassInput Dict.empty sampleSources
          DebugState.empty).1 = .ok r ∧
        (steadyWeb, Outcome.accepted webServed) ∈ r.reports := by
  exact ⟨steady_limitedPass "1", by decide +kernel, by decide +kernel, by decide +kernel⟩

end SvcLbMux
