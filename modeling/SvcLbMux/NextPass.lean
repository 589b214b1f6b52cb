import SvcLbMux.PortReaders
import SvcLbMux.Steady

namespace SvcLbMux

open Py

variable {cfg : Config}

/-- A pass finds what the pass over `input` has left. On the mux Service the controller's own
annotations may differ, but not what the store, the ranges and the limit are read from. -/
structure Follows (cfg : Config) (input : PassInput) (r : PassResult) (next : PassInput) : Prop where
  store : muxStore cfg next.mux = muxStore cfg input.mux
  ranges : muxPortRanges cfg next.mux = muxPortRanges cfg input.mux
  limit : (muxPortLimit cfg next.mux).1 = (muxPortLimit cfg input.mux).1
  muxPorts : oldMuxPorts next.mux.ports = .ok r.muxPorts
  configmap : next.configmap = r.configmap
  channels : next.channels.Perm (r.reports.map (channelAfter cfg))

/-! ## Accepted channels -/

section Accepted

variable {input : AdmittedPass} {r : PassResult} {start : PassStart} {c : Channel}
  {served : List ResolvedPort}

theorem owned_of_reports (hpass : muxPass cfg input.toPassInput = .ok r)
    (hreport : (c, Outcome.accepted served) ∈ r.reports) {p : ResolvedPort} (hp : p ∈ served) :
    (p.key, c.owner cfg p.port) ∈ r.final.registry.holds := by
  obtain ⟨start, -, hrun, -⟩ := muxPass_eq_ok hpass
  refine Loop.run_log_invariant (fun reports s => ∀ c served, (c, Outcome.accepted served) ∈ reports →
    ∀ p ∈ served, (p.key, c.owner cfg p.port) ∈ s.registry.holds) (by simp) ?_ hrun c served hreport
    p hp
  rintro reports s d s' outcome - hs hstep c served hreport p hp
  rcases List.mem_append.mp hreport with hreport | hreport
  · exact holds_subset_channelStep hstep (hs c served hreport p hp)
  · simp only [List.mem_singleton, Prod.mk.injEq] at hreport
    obtain ⟨rfl, rfl⟩ := hreport
    rw [(acceptedTurn_of_step hstep).holds]
    exact Or.inr ⟨p, hp, rfl⟩

/-- Allocated ports are in the ranges of the mux, if its settings and its store could be read. -/
theorem inRange_of_allocated (hpass : muxPass cfg input.toPassInput = .ok r)
    {explicitPorts : Dict String PortRequest} (hserved : ServedAt cfg c explicitPorts served)
    (hreport : (c, Outcome.accepted served) ∈ r.reports) {p : ResolvedPort}
    (hp : Allocated explicitPorts served p) :
    containsPort (muxPortRanges cfg input.mux).1 p.muxPort = true := by
  obtain ⟨start, hstart, -⟩ := muxPass_eq_ok hpass
  obtain ⟨e, he⟩ := started_of_passStart hstart
  obtain ⟨explicitPorts', st, hserved', hfixed, hheld⟩ := turn_of_accepted hpass hstart hreport
  obtain rfl := Except.ok.inj (hserved.claims.symm.trans hserved'.claims)
  have hin := (hheld p hp).inRange
  rw [MuxState.ranges_of_fixed hfixed, he.loop] at hin
  change containsPort e.ranges p.muxPort = true at hin
  rcases he.loaded with ⟨-, hranges, -⟩ | ⟨-, hranges, -⟩
  · simp [hranges, containsPort] at hin
  · rwa [hranges] at hin

end Accepted

/-! ## Channels after their turn -/

section Channels

variable (cfg) in
theorem annotationExternalPorts_ne : cfg.annotationPorts ≠ cfg.annotationExternalPorts :=
  cfg.annotationKey_injective.ne (by decide)

theorem channelAfter_eq (report : Channel × Outcome) :
    channelAfter cfg report = report.1 ∨
      ∃ text, channelAfter cfg report = report.1.patchPorts cfg text := by
  unfold channelAfter
  split
  · split_ifs
    · exact Or.inr ⟨_, rfl⟩
    · exact Or.inl rfl
  · exact Or.inl rfl

theorem ports_channelAfter (report : Channel × Outcome) :
    (channelAfter cfg report).ports = report.1.ports := by
  obtain h | ⟨text, h⟩ := channelAfter_eq report
  · rw [h]
  · rw [h]
    rfl

theorem key_channelAfter (report : Channel × Outcome) :
    (channelAfter cfg report).key = report.1.key := by
  obtain h | ⟨text, h⟩ := channelAfter_eq report
  · rw [h]
  · rw [h]
    rfl

theorem channelPortClaims_channelAfter (report : Channel × Outcome) :
    channelPortClaims cfg (channelAfter cfg report) = channelPortClaims cfg report.1 := by
  obtain h | ⟨text, h⟩ := channelAfter_eq report
  · rw [h]
  · have htext : Channel.annotation (report.1.patchPorts cfg text) cfg.annotationExternalPorts =
        Channel.annotation report.1 cfg.annotationExternalPorts := by
      unfold Channel.annotation Channel.patchPorts
      dsimp only
      rw [Dict.get_set, if_neg (annotationExternalPorts_ne cfg)]
    rw [h, channelPortClaims, htext]
    rfl

theorem staticallyRequests_channelAfter (report : Channel × Outcome) (key : PortKey) :
    StaticallyRequests cfg (channelAfter cfg report) key ↔ StaticallyRequests cfg report.1 key := by
  unfold StaticallyRequests
  rw [channelPortClaims_channelAfter, ports_channelAfter]

theorem admitted_channelAfter {report : Channel × Outcome} (h : report.1.Admitted) :
    (channelAfter cfg report).Admitted := by
  have hkey : (channelAfter cfg report).key = report.1.key := key_channelAfter report
  obtain ⟨hns, hname⟩ := Prod.mk.inj hkey
  refine ⟨hns ▸ h.namespace_, hname ▸ h.name, ?_, ?_⟩
  · rw [ports_channelAfter]
    exact h.ports
  · rw [ports_channelAfter]
    exact h.names

theorem annotation_channelAfter (c : Channel) (served : List ResolvedPort) :
    Channel.annotation (channelAfter cfg (c, .accepted served)) cfg.annotationPorts =
      portsAnnotationOf served := by
  unfold channelAfter
  dsimp only
  split_ifs with hchanged
  · simp [Channel.annotation, Channel.patchPorts]
  · rw [Channel.annotation, not_not.mp hchanged]
    rfl

theorem readable_channelAfter {input : AdmittedPass} {r : PassResult}
    (hpass : muxPass cfg input.toPassInput = .ok r) {report : Channel × Outcome}
    (hreport : report ∈ r.reports) : PortsAnnotationReadable cfg (channelAfter cfg report) := by
  obtain ⟨d, outcome⟩ := report
  have hd := input.mem_channels_of_mem_reports hpass hreport
  have hbefore : PortsAnnotationReadable cfg d := (input.muxPass_ok_iff.mp ⟨r, hpass⟩).2 d hd
  cases outcome with
  | rejected rejection => exact hbefore
  | accepted resolved =>
    -- The recorder read the very text.
    obtain ⟨s, s', -, hstep⟩ := input.exists_step hpass hreport
    have hrecord := (acceptedTurn_of_step hstep).recorded
    unfold PortsAnnotationReadable
    rw [annotation_channelAfter]
    unfold MuxState.recordChannelClaims at hrecord
    split at hrecord
    · cases hrecord
    · rename_i mappings hmappings
      exact ⟨mappings, hmappings⟩

end Channels

/-! ## What accepted channels carry -/

/-- The channel carries the annotation of the ports that it was accepted at. -/
structure Carries (cfg : Config) (c : Channel) (resolved : List ResolvedPort) : Prop where
  admitted : c.Admitted
  named : ∀ p ∈ c.ports, p.unnamed = false
  ports : resolved.map ResolvedPort.port = c.ports
  inRange : ∀ r ∈ resolved, 1 ≤ r.muxPort ∧ r.muxPort ≤ 65535
  annotation : c.annotation cfg.annotationPorts = portsAnnotationOf resolved

namespace Carries

variable {c : Channel} {resolved : List ResolvedPort} (h : Carries cfg c resolved)

include h

theorem plain : ∀ m ∈ resolved.map ResolvedPort.mapping, PlainMapping m :=
  MuxState.plainMapping_of_resolved h.admitted h.named h.ports h.inRange

theorem writable : ∀ m ∈ resolved.map ResolvedPort.mapping, Writable m.2.2 := by
  intro m hm
  obtain ⟨r, hr, rfl⟩ := List.mem_map.mp hm
  have hrange := h.inRange r hr
  change (Nat.toDigits 10 r.muxPort.natAbs).length ≤ maxStrDigits
  have hdigits : (Nat.toDigits 10 r.muxPort.natAbs).length ≤ 5 :=
    (Nat.length_toDigits_le_iff (by decide) (by decide)).mpr (by omega)
  exact hdigits.trans (by decide)

theorem parseMuxPortAnnotation_eq :
    DebugState.parseMuxPortAnnotation (c.annotation cfg.annotationPorts) =
      .ok (Dict.ofList ((resolved.map ResolvedPort.mapping).map fun m => (m.1, m.2.2))) := by
  rw [h.annotation]
  exact parseMuxPortAnnotation_format h.plain h.writable

end Carries

theorem carries_of_accepted {input : AdmittedPass} {r : PassResult}
    (hpass : muxPass cfg input.toPassInput = .ok r) {c : Channel} {resolved : List ResolvedPort}
    (hreport : (c, .accepted resolved) ∈ r.reports) :
    Carries cfg (channelAfter cfg (c, .accepted resolved)) resolved := by
  have hc := input.mem_channels_of_mem_reports hpass hreport
  obtain ⟨start, hstart, -⟩ := muxPass_eq_ok hpass
  obtain ⟨s, s', hmeets, hstep⟩ := input.exists_step hpass hreport
  obtain ⟨hsound, -⟩ := sound_of_meets hstart hmeets
  obtain ⟨explicitPorts, hclaims, hports, hall, -⟩ :=
    accepted_spec (input.admitted c hc) hsound.wellKeyed hsound.ranges hstep
  constructor
  · exact admitted_channelAfter (input.admitted c hc)
  · rw [ports_channelAfter]
    exact (channelPortClaims_eq_ok hclaims).2
  · rw [ports_channelAfter]
    exact hports
  · intro r hr
    by_cases hauto : explicitPorts.get r.port.portName = some .auto
    · exact rangesValid_of_fixed hsound.ranges MuxState.fixed_resolve _
        ((hall r hr).auto hauto).inRange
    · exact ((hall r hr).static hauto).2
  · exact annotation_channelAfter c resolved

/-! ## Steady channels -/

section Steady

variable {input next : AdmittedPass} {r : PassResult} {c : Channel}
  {explicitPorts : Dict String PortRequest} {served : List ResolvedPort}

theorem readable_next (hpass : muxPass cfg input.toPassInput = .ok r)
    (hfollows : Follows cfg input.toPassInput r next.toPassInput) :
    Readable cfg next.toPassInput := by
  refine ⟨(oldMuxPorts_ok_iff _).mp ⟨_, hfollows.muxPorts⟩, fun d hd => ?_⟩
  obtain ⟨report, hreport, rfl⟩ := List.mem_map.mp (hfollows.channels.subset hd)
  exact readable_channelAfter hpass hreport

theorem debugReadable_next (hpass : muxPass cfg input.toPassInput = .ok r)
    (hreads : ∀ d ∈ input.channels, DebugReadable cfg d)
    (hfollows : Follows cfg input.toPassInput r next.toPassInput) :
    ∀ d ∈ next.channels, DebugReadable cfg d := by
  intro d hd
  obtain ⟨⟨d', outcome⟩, hreport, rfl⟩ := List.mem_map.mp (hfollows.channels.subset hd)
  cases outcome with
  | rejected rejection => exact hreads d' (input.mem_channels_of_mem_reports hpass hreport)
  | accepted resolved => exact ⟨_, (carries_of_accepted hpass hreport).parseMuxPortAnnotation_eq⟩

/-- Only the cached Endpoints can make the iteration after raise. -/
theorem digestible_next_iff {memoEndpoints memoEndpoints' : MemoEndpoints}
    (h : Digestible cfg input.toPassInput memoEndpoints)
    (hpass : muxPass cfg input.toPassInput = .ok r)
    (hfollows : Follows cfg input.toPassInput r next.toPassInput) :
    Digestible cfg next.toPassInput memoEndpoints' ↔
      ∀ d s, PassMeets cfg next.toPassInput d s →
        ¬ TurnedAway cfg (muxPortLimit cfg next.mux).1 s d →
          EndpointPortsNamed memoEndpoints' d := by
  have hreads : ∀ d ∈ input.channels, DebugReadable cfg d := fun d hd =>
    ((annotation_readable_iff d).mpr (h.annotations d hd)).2
  have hreadable := readable_next hpass hfollows
  refine ⟨fun hnext => hnext.endpoints, fun hnamed => ⟨hreadable.1, fun d hd => ?_, hnamed⟩⟩
  exact (annotation_readable_iff d).mp
    ⟨hreadable.2 d hd, debugReadable_next hpass hreads hfollows d hd⟩

theorem unrequested_next (hpass : muxPass cfg input.toPassInput = .ok r)
    (hfollows : Follows cfg input.toPassInput r next.toPassInput)
    (h : Unrequested cfg input.channels explicitPorts served) :
    Unrequested cfg next.channels explicitPorts served := by
  intro p hp d hd hstatic
  obtain ⟨⟨d', outcome⟩, hreport, rfl⟩ := List.mem_map.mp (hfollows.channels.subset hd)
  exact h p hp d' (input.mem_channels_of_mem_reports hpass hreport)
    ((staticallyRequests_channelAfter _ _).mp hstatic)

theorem persisted_next {start : PassStart} (hpass : muxPass cfg input.toPassInput = .ok r)
    (hstart : passStart cfg input.toPassInput = .ok start)
    (hfollows : Follows cfg input.toPassInput r next.toPassInput)
    (hpersisted : Persisted cfg input.toPassInput c served)
    (hsecured : Secured cfg c explicitPorts served r.final) (hsound : r.final.Sound) :
    Persisted cfg next.toPassInput c served := by
  obtain ⟨-, hconfigmap⟩ := muxPass_from_start hpass hstart
  obtain ⟨e, he⟩ := started_of_passStart hstart
  rw [(state_of_load he hpersisted.load).2.2, savedConfigmap, ← hfollows.configmap] at hconfigmap
  split_ifs at hconfigmap with hsaved
  · have hget := MuxState.claimsByKey_toState hsound.wellKeyed hsound.normalized
    refine ⟨?_, fun p hp => ?_, fun claim hmem p hp hl => ?_⟩
    · rw [hconfigmap, hfollows.store]
      exact ⟨_, ConfigMapAllocationStore.load_save _ _⟩
    · rw [hconfigmap, storedClaims_save, hget]
      exact (hsecured.claimed p hp).claimed
    · rw [hconfigmap, storedClaims_save] at hmem
      obtain ⟨⟨key, claim'⟩, hentry, rfl⟩ := List.mem_map.mp hmem
      have hclaim := (Dict.get_eq_some_iff _ _ _).mpr
        ((List.perm_insertionSort _ _).subset hentry)
      rw [hsound.wellKeyed _ _ hclaim]
      exact (hsecured.claimed p hp).alone key claim' hclaim hl
  · refine ⟨?_, ?_, ?_⟩
    · rw [hconfigmap, hfollows.store]
      exact hpersisted.load
    · rw [hconfigmap]
      exact hpersisted.claimed
    · rw [hconfigmap]
      exact hpersisted.alone

/-- The mux Service gives the listeners that a channel owns to nobody else. The placeholder is on it
only when nothing was collected. -/
theorem muxPorts_next (hpass : muxPass cfg input.toPassInput = .ok r) (hne : r.final.ports ≠ ∅)
    {p : ResolvedPort} (howned : (p.key, c.owner cfg p.port) ∈ r.final.registry.holds) :
    ∀ m ∈ r.muxPorts, m.key = p.key → m.name = c.muxName cfg p.port := by
  intro m hm hkey
  obtain ⟨start, -, -, hmuxPorts, -⟩ := muxPass_eq_ok hpass
  have hcollected := collected_of_reaches (passReaches_of_muxPass hpass)
  rw [hmuxPorts, buildMuxPorts, if_neg hne, Finset.mem_filter] at hm
  obtain ⟨hlen, ns, name, howner⟩ := hcollected.owned m hm.1
  rw [hkey, (mem_registry _ _ _).mp howned] at howner
  exact (muxName_eq_of_ownerText_eq (length_muxName.trans hlen.symm) (Option.some.inj howner)).symm

theorem ports_ne_empty_of_accepted (hpass : muxPass cfg input.toPassInput = .ok r)
    (haccepted : (c, Outcome.accepted served) ∈ r.reports) {p : ResolvedPort} (hp : p ∈ served) :
    r.final.ports ≠ ∅ := by
  have hcollected := collected_of_reaches (passReaches_of_muxPass hpass)
  exact Finset.ne_empty_of_mem ((hcollected.ports _).mpr
    (List.mem_flatMap.mpr ⟨_, haccepted, List.mem_map_of_mem hp⟩))

theorem steady_next (hsteady : Steady cfg input.toPassInput c explicitPorts served)
    (hpass : muxPass cfg input.toPassInput = .ok r)
    (haccepted : (c, Outcome.accepted served) ∈ r.reports)
    (hfollows : Follows cfg input.toPassInput r next.toPassInput) :
    Steady cfg next.toPassInput c explicitPorts served := by
  obtain ⟨start, hstart, hrun, -⟩ := muxPass_eq_ok hpass
  obtain ⟨e, he⟩ := started_of_passStart hstart
  have hunrequested := unrequested_of_accepted hpass hsteady.servedAt haccepted
  have hsecured := secured_of_run he hsteady.servedAt hsteady.mem
    (secured_of_steady hsteady hunrequested he) (List.Subset.refl _) hrun
  have hsound : r.final.Sound :=
    Loop.run_invariant LoopState.Sound he.sound (fun _ _ _ _ _ => sound_channelStep) hrun
  refine ⟨?_, hsteady.servedAt, persisted_next hpass hstart hfollows hsteady.persisted hsecured hsound,
    ?_, ?_, hsteady.recorded⟩
  · refine hfollows.channels.mem_iff.mpr (List.mem_map.mpr ⟨_, haccepted, ?_⟩)
    exact if_neg (not_not.mpr hsteady.recorded)
  · rw [hfollows.ranges]
    exact hsteady.inRange
  · intro oldPorts hold m hm p hp
    obtain rfl := Except.ok.inj (hfollows.muxPorts.symm.trans hold)
    exact muxPorts_next hpass (ports_ne_empty_of_accepted hpass haccepted hp) (hsecured.owned p hp) m hm

theorem accepted_of_steady (hsteady : Steady cfg input.toPassInput c explicitPorts served)
    (hlimit : (muxPortLimit cfg input.mux).1 = none)
    (hunrequested : Unrequested cfg input.channels explicitPorts served)
    (hpass : muxPass cfg input.toPassInput = .ok r) :
    (c, Outcome.accepted served) ∈ r.reports := by
  obtain ⟨start, hstart, -⟩ := muxPass_eq_ok hpass
  obtain ⟨e, he⟩ := started_of_passStart hstart
  refine accepted_in_pass hpass hstart hsteady.servedAt hsteady.mem
    (secured_of_steady hsteady hunrequested he) fun s _ => ?_
  rw [hlimit]
  rfl

theorem map_key_channelAfter (hpass : muxPass cfg input.toPassInput = .ok r) :
    (r.reports.map (channelAfter cfg)).map Channel.key =
      (sortChannels input.channels).map Channel.key := by
  obtain ⟨start, -, hrun, -⟩ := muxPass_eq_ok hpass
  rw [← Loop.map_fst_run hrun, List.map_map, List.map_map]
  exact List.map_congr_left fun report _ => key_channelAfter report

/-- What is written to `spec.ports` is read as the same set of mux ports. -/
theorem oldMuxPorts_written (muxPorts : List MuxPort) :
    oldMuxPorts (muxPorts.map fun m => ⟨some m.name, m.port, some m.protocol⟩) =
      .ok muxPorts.toFinset := by
  induction muxPorts with
  | nil => rfl
  | cons m muxPorts ih =>
    rw [List.map_cons, oldMuxPorts]
    simp [ih, Except.map]

theorem exists_follows (hpass : muxPass cfg input.toPassInput = .ok r) :
    ∃ next : AdmittedPass, Follows cfg input.toPassInput r next.toPassInput := by
  refine ⟨{
    mux := { input.mux with
      ports := (input.order.toList r.muxPorts).map fun m => ⟨some m.name, m.port, some m.protocol⟩ }
    channels := r.reports.map (channelAfter cfg)
    configmap := r.configmap
    order := input.order
    admitted := ?_
    distinct := ?_ }, rfl, rfl, rfl, ?_, rfl, List.Perm.refl _⟩
  · intro c hc
    obtain ⟨report, hreport, rfl⟩ := List.mem_map.mp hc
    exact admitted_channelAfter
      (input.admitted _ (input.mem_channels_of_mem_reports hpass hreport))
  · rw [map_key_channelAfter hpass]
    exact input.nodup_sortChannels
  · rw [oldMuxPorts_written]
    congr 1
    ext m
    rw [List.mem_toFinset, input.order.mem_toList]

end Steady

/-! ## Newcomers -/

/-- Whatever other channels come, a steady channel keeps its allocated ports in the next iteration
and in the one after, exactly when the first can digest what it reads, no Endpoints that the second
collects have an address behind an unnamed port, and no channel asks for these ports by number, be it
accepted or not. -/
theorem allocated_ports_undisplaced_iff (cfg : Config) (input : AdmittedPass)
    (memoEndpoints memoEndpoints' : MemoEndpoints) (sources sources' : DebugSources)
    (st st' : DebugState) (c : Channel) (explicitPorts : Dict String PortRequest)
    (served : List ResolvedPort) (hsteady : Steady cfg input.toPassInput c explicitPorts served)
    (hlimit : (muxPortLimit cfg input.mux).1 = none) :
    (∃ r, (daemonIteration cfg input.toPassInput memoEndpoints sources st).1 = .ok r ∧
      (c, Outcome.accepted served) ∈ r.reports ∧
      ∀ next : AdmittedPass, Follows cfg input.toPassInput r.toPassResult next.toPassInput →
        ∃ r', (daemonIteration cfg next.toPassInput memoEndpoints' sources' st').1 = .ok r' ∧
          (c, Outcome.accepted served) ∈ r'.reports) ↔
    Digestible cfg input.toPassInput memoEndpoints ∧
      Unrequested cfg input.channels explicitPorts served ∧
      ∀ r, muxPass cfg input.toPassInput = .ok r →
        ∀ next : AdmittedPass, Follows cfg input.toPassInput r next.toPassInput →
          ∀ d s, PassMeets cfg next.toPassInput d s →
            ¬ TurnedAway cfg (muxPortLimit cfg next.mux).1 s d →
              EndpointPortsNamed memoEndpoints' d := by
  constructor
  · rintro ⟨r, hr, haccepted, hnext⟩
    have hpass := muxPass_of_daemonIteration hr
    refine ⟨(daemonIteration_ok_iff input _ _).mp ⟨r, hr⟩,
      unrequested_of_accepted hpass hsteady.servedAt haccepted, fun r₁ hpass₁ next hfollows => ?_⟩
    obtain rfl := Except.ok.inj (hpass.symm.trans hpass₁)
    obtain ⟨r', hr', -⟩ := hnext next hfollows
    exact ((daemonIteration_ok_iff next _ _).mp ⟨r', hr'⟩).endpoints
  · rintro ⟨hdigestible, hunrequested, hnamed⟩
    obtain ⟨r, hr⟩ := (daemonIteration_ok_iff input sources st).mpr hdigestible
    have hpass := muxPass_of_daemonIteration hr
    have haccepted := accepted_of_steady hsteady hlimit hunrequested hpass
    refine ⟨r, hr, haccepted, fun next hfollows => ?_⟩
    have hdigestible' := (digestible_next_iff hdigestible hpass hfollows).mpr
      (hnamed r.toPassResult hpass next hfollows)
    obtain ⟨r', hr'⟩ := (daemonIteration_ok_iff next sources' st').mpr hdigestible'
    exact ⟨r', hr', accepted_of_steady (steady_next hsteady hpass haccepted hfollows)
      (hfollows.limit.trans hlimit) (unrequested_next hpass hfollows hunrequested)
      (muxPass_of_daemonIteration hr')⟩

/-! ## A channel with an allocated port -/

def autoWeb : Channel := sampleChannel "web" "http" 80
  [("svc-mux.nowake.ai/external-ports", "http:auto"), ("svc-mux.nowake.ai/ports", "http:80->9000")]

def autoWebPorts : Dict String PortRequest := Dict.ofList [("http", .auto)]

def autoWebServed : List ResolvedPort := [⟨⟨some "http", 80, some "TCP"⟩, 9000⟩]

def autoWebMux : MuxService :=
  sampleMux [("svc-mux.nowake.ai/port-range", "9000-9001")] [("07bb300", 9000)]

def autoWebConfigmap : ConfigMap := sampleConfigmap [sampleClaim "web" 80 9000 "auto"]

theorem steady_autoWeb {input : PassInput} (hmux : input.mux = autoWebMux)
    (hconfigmap : input.configmap = some autoWebConfigmap) (hmem : autoWeb ∈ input.channels) :
    Steady sampleConfig input autoWeb autoWebPorts autoWebServed where
  mem := hmem
  servedAt := ⟨by decide +kernel, rfl, by decide +kernel⟩
  persisted := persisted_of_listenersDistinct (by rw [hmux, hconfigmap]; exact ⟨_, rfl⟩)
    (by rw [hconfigmap]; decide +kernel) (by rw [hconfigmap]; decide +kernel)
  inRange := by
    rintro r ⟨hr, -⟩
    obtain rfl := List.mem_singleton.mp hr
    rw [hmux]
    decide +kernel
  muxPorts := by
    intro oldPorts hold
    rw [hmux] at hold
    obtain rfl := Except.ok.inj hold
    decide +kernel
  recorded := by decide +kernel

/-- The newcomer `api` gets a port of the range allocated. -/
def autoNewcomerPass : AdmittedPass where
  mux := autoWebMux
  channels :=
    [autoWeb, sampleChannel "api" "http" 80 [("svc-mux.nowake.ai/external-ports", "http:auto")]]
  configmap := some autoWebConfigmap
  order := sampleOrder
  admitted := by decide +kernel
  distinct := by decide +kernel

/-- The newcomer `api` asks for the port that is allocated to `web`. -/
def staticNewcomerPass : AdmittedPass where
  mux := autoWebMux
  channels := [autoWeb, sampleChannel "api" "http" 9000 []]
  configmap := some autoWebConfigmap
  order := sampleOrder
  admitted := by decide +kernel
  distinct := by decide +kernel

theorem endpointPortsNamed_apiEndpoints (portName : String) (c : Channel) :
    EndpointPortsNamed (apiEndpoints (some portName)) c := by
  unfold EndpointPortsNamed cachedSubsets
  cases hget : (apiEndpoints (some portName)).get c.key with
  | none => simp
  | some found =>
    have hfound := (Dict.get_eq_some_iff _ _ _).mp hget
    obtain ⟨-, rfl⟩ := Prod.mk.inj (List.mem_singleton.mp hfound)
    simp

theorem allocated_ports_undisplaced_autoNewcomerPass :
    let memoEndpoints := apiEndpoints (some "http")
    ∃ r, (daemonIteration sampleConfig autoNewcomerPass.toPassInput memoEndpoints sampleSources
        DebugState.empty).1 = .ok r ∧
      (autoWeb, Outcome.accepted autoWebServed) ∈ r.reports ∧
      ∃ next r', Follows sampleConfig autoNewcomerPass.toPassInput r.toPassResult next ∧
        (daemonIteration sampleConfig next memoEndpoints sampleSources DebugState.empty).1 = .ok r' ∧
          (autoWeb, Outcome.accepted autoWebServed) ∈ r'.reports := by
  intro memoEndpoints
  have hunrequested :
      Unrequested sampleConfig autoNewcomerPass.channels autoWebPorts autoWebServed := by
    rintro p ⟨hp, -⟩ d hd ⟨explicitPorts, hclaims, q, hq, hauto, -⟩
    -- Both channels have their only port allocated.
    have hall : ∀ d ∈ autoNewcomerPass.channels, channelPortClaims sampleConfig d = .ok autoWebPorts ∧
        ∀ q ∈ d.ports, autoWebPorts.get q.portName = some .auto := by decide +kernel
    obtain rfl := Except.ok.inj ((hall d hd).1.symm.trans hclaims)
    exact hauto ((hall d hd).2 q hq)
  have hnamed := endpointPortsNamed_apiEndpoints "http"
  have hdigestible : Digestible sampleConfig autoNewcomerPass.toPassInput memoEndpoints :=
    digestible_of_readable (by decide +kernel) (by decide +kernel) fun d _ => hnamed d
  obtain ⟨r, hr, haccepted, hnext⟩ := (allocated_ports_undisplaced_iff sampleConfig autoNewcomerPass
    memoEndpoints memoEndpoints sampleSources sampleSources DebugState.empty DebugState.empty autoWeb
    autoWebPorts autoWebServed (steady_autoWeb rfl rfl (by simp [autoNewcomerPass]))
    (by decide +kernel)).mpr ⟨hdigestible, hunrequested, fun _ _ _ _ d _ _ _ => hnamed d⟩
  obtain ⟨next, hfollows⟩ := exists_follows (muxPass_of_daemonIteration hr)
  obtain ⟨r', hr', haccepted'⟩ := hnext next hfollows
  exact ⟨r, hr, haccepted, next.toPassInput, r', hfollows, hr', haccepted'⟩

/-- The newcomer is rejected, and `web` is moved all the same. -/
theorem allocated_port_displaced_staticNewcomerPass :
    Steady sampleConfig staticNewcomerPass.toPassInput autoWeb autoWebPorts autoWebServed ∧
      (muxPortLimit sampleConfig staticNewcomerPass.mux).1 = none ∧
      Digestible sampleConfig staticNewcomerPass.toPassInput Dict.empty ∧
      (∃ r, (daemonIteration sampleConfig staticNewcomerPass.toPassInput Dict.empty sampleSources
          DebugState.empty).1 = .ok r ∧
        (sampleChannel "api" "http" 9000 [], Outcome.rejected (.portConflict
          [⟨⟨some "http", 9000, some "TCP"⟩, 9000⟩]
          ["9000/TCP is already claimed by default/web:07bb300"])) ∈ r.reports ∧
        (autoWeb, Outcome.accepted [⟨⟨some "http", 80, some "TCP"⟩, 9001⟩]) ∈ r.reports) ∧
      ¬ ∃ r, (daemonIteration sampleConfig staticNewcomerPass.toPassInput Dict.empty sampleSources
          DebugState.empty).1 = .ok r ∧
        (autoWeb, Outcome.accepted autoWebServed) ∈ r.reports :=
  ⟨steady_autoWeb rfl rfl (by simp [staticNewcomerPass]), by decide +kernel,
    digestible_of_readable (by decide +kernel) (by decide +kernel) (by decide +kernel),
    by decide +kernel, by decide +kernel⟩

end SvcLbMux
