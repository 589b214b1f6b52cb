import SvcLbMux.DebugState
import SvcLbMux.Pass

namespace SvcLbMux

open Py

section Definitions

variable (cfg : Config)

structure IterationState where
  loop : LoopState
  endpoints : List EndpointSubset

/-- The whole body of the loop over the sorted channels. -/
def iterationStep (memoEndpoints : MemoEndpoints) (muxKey : String × String)
    (maxPorts : Option Int) (s : IterationState) (channel : Channel) :
    Except PyError (IterationState × Outcome) :=
  match channelStep cfg muxKey maxPorts s.loop channel with
  | .error e => .error e
  | .ok (loop, .rejected rejection) => .ok (⟨loop, s.endpoints⟩, .rejected rejection)
  | .ok (loop, .accepted resolved) =>
    (collectChannelEndpoints cfg channel memoEndpoints).map fun chEndpoints =>
      (⟨loop, s.endpoints ++ chEndpoints⟩, .accepted resolved)

/-- What `format_topology_annotation` reads of the `ports` annotations. -/
def topologyMappings (channels : List Channel) : Except ValueError (List (Dict String String)) :=
  (sortChannels channels).mapM fun channel =>
    parsePortMappings (channel.annotation cfg.annotationPorts)

structure IterationResult extends PassResult where
  endpoints : List EndpointSubset
  topology : List (Dict String String)

def reconcileChannels (input : PassInput) (memoEndpoints : MemoEndpoints) :
    Except PyError IterationResult :=
  match passStart cfg input with
  | .error e => .error e
  | .ok start =>
    match Loop.run
        (iterationStep cfg memoEndpoints (input.mux.namespace_, input.mux.name) start.maxPorts)
        (sortChannels input.channels) ⟨start.loop, []⟩ with
    | .error e => .error e
    | .ok (final, reports) =>
      match topologyMappings cfg input.channels with
      | .error e => .error (.valueError e)
      | .ok topology =>
        .ok { final := final.loop
              reports := reports
              muxPorts := buildMuxPorts final.loop.ports
              configmap := savedConfigmap start.store final.loop.muxState input.configmap
              muxEvents := start.events
              endpoints := final.endpoints
              topology := topology }

/-- One iteration of `mux_daemon`. What the debug state got before an exception stays. -/
def daemonIteration (input : PassInput) (memoEndpoints : MemoEndpoints) (sources : DebugSources)
    (st : DebugState) : Except PyError IterationResult × DebugState :=
  match updateMuxState cfg memoEndpoints sources (input.mux.namespace_, input.mux.name) input.mux
      input.channels st with
  | (.error e, st) => (.error (.valueError e), st)
  | (.ok (), st) => (reconcileChannels cfg input memoEndpoints, st)

end Definitions

variable {cfg : Config} {memoEndpoints : MemoEndpoints}

/-! ## The endpoints of a channel -/

def cachedSubsets (memoEndpoints : MemoEndpoints) (c : Channel) : List EndpointSubset :=
  ((memoEndpoints.get c.key).bind Endpoints.subsets).getD []

def EndpointSubset.hasAddress (subset : EndpointSubset) : Bool :=
  subset.addresses ≠ [] || subset.notReadyAddresses ≠ []

/-- No address of a channel is behind an unnamed port. -/
def EndpointPortsNamed (memoEndpoints : MemoEndpoints) (c : Channel) : Prop :=
  ∀ subset ∈ cachedSubsets memoEndpoints c, subset.hasAddress = true →
    ∀ port ∈ subset.ports, port.name ≠ none

instance (memoEndpoints : MemoEndpoints) (c : Channel) :
    Decidable (EndpointPortsNamed memoEndpoints c) :=
  inferInstanceAs (Decidable (∀ _ ∈ _, _ → _))

theorem collectChannelEndpoints_eq (c : Channel) :
    collectChannelEndpoints cfg c memoEndpoints =
      ((cachedSubsets memoEndpoints c).filter EndpointSubset.hasAddress).mapM (muxSubset cfg c) := by
  unfold collectChannelEndpoints cachedSubsets
  cases (memoEndpoints.get c.key).bind Endpoints.subsets with
  | none => rfl
  | some subsets => rfl

theorem muxSubset_eq_ok {c : Channel} {subset muxed : EndpointSubset}
    (h : muxSubset cfg c subset = .ok muxed) :
    muxed.addresses = subset.addresses ∧ muxed.notReadyAddresses = subset.notReadyAddresses ∧
      subset.ports.mapM (muxEndpointPort cfg c) = .ok muxed.ports := by
  unfold muxSubset at h
  cases hports : subset.ports.mapM (muxEndpointPort cfg c) with
  | error e => simp [hports, Except.map] at h
  | ok ports =>
    simp only [hports, Except.map, Except.ok.injEq] at h
    subst h
    exact ⟨rfl, rfl, rfl⟩

theorem muxSubset_ok_iff {c : Channel} {subset : EndpointSubset} :
    (∃ muxed, muxSubset cfg c subset = .ok muxed) ↔ ∀ port ∈ subset.ports, port.name ≠ none := by
  have hport : ∀ port : EndpointPort,
      (∃ muxed, muxEndpointPort cfg c port = .ok muxed) ↔ port.name ≠ none := by
    intro port
    unfold muxEndpointPort
    cases port.name with
    | none => simp
    | some name => simp
  simp only [← hport, ← Loop.mapM_ok_iff, muxSubset]
  cases subset.ports.mapM (muxEndpointPort cfg c) with
  | error e => simp [Except.map]
  | ok ports => simp [Except.map]

/-- The collection raises on an unnamed port, and on nothing else. -/
theorem collectChannelEndpoints_ok_iff (cfg : Config) {c : Channel} :
    (∃ subsets, collectChannelEndpoints cfg c memoEndpoints = .ok subsets) ↔
      EndpointPortsNamed memoEndpoints c := by
  rw [collectChannelEndpoints_eq, Loop.mapM_ok_iff]
  simp only [muxSubset_ok_iff, List.mem_filter, and_imp]
  rfl

/-! ## The loop of an iteration and the loop of its pass -/

variable {muxKey : String × String} {maxPorts : Option Int}

theorem channelStep_of_iterationStep {s s' : IterationState} {c : Channel} {outcome : Outcome}
    (h : iterationStep cfg memoEndpoints muxKey maxPorts s c = .ok (s', outcome)) :
    channelStep cfg muxKey maxPorts s.loop c = .ok (s'.loop, outcome) := by
  unfold iterationStep at h
  split at h
  · cases h
  · rename_i hstep
    obtain ⟨rfl, rfl⟩ := Prod.mk.inj (Except.ok.inj h)
    exact hstep
  · rename_i hstep
    cases hcollect : collectChannelEndpoints cfg c memoEndpoints with
    | error e => simp [hcollect, Except.map] at h
    | ok chEndpoints =>
      simp only [hcollect, Except.map, Except.ok.injEq, Prod.mk.injEq] at h
      obtain ⟨rfl, rfl⟩ := h
      exact hstep

theorem endpoints_iterationStep {s s' : IterationState} {c : Channel} {outcome : Outcome}
    (h : iterationStep cfg memoEndpoints muxKey maxPorts s c = .ok (s', outcome)) :
    ((∃ rejection, outcome = .rejected rejection) ∧ s'.endpoints = s.endpoints) ∨
      ∃ resolved chEndpoints, outcome = .accepted resolved ∧
        collectChannelEndpoints cfg c memoEndpoints = .ok chEndpoints ∧
        s'.endpoints = s.endpoints ++ chEndpoints := by
  unfold iterationStep at h
  split at h
  · cases h
  · obtain ⟨rfl, rfl⟩ := Prod.mk.inj (Except.ok.inj h)
    exact Or.inl ⟨⟨_, rfl⟩, rfl⟩
  · cases hcollect : collectChannelEndpoints cfg c memoEndpoints with
    | error e => simp [hcollect, Except.map] at h
    | ok chEndpoints =>
      simp only [hcollect, Except.map, Except.ok.injEq, Prod.mk.injEq] at h
      obtain ⟨rfl, rfl⟩ := h
      exact Or.inr ⟨_, chEndpoints, rfl, rfl, rfl⟩

/-- A turn of the pass is a turn of the iteration, unless an accepted channel has an address behind
an unnamed port. -/
theorem iterationStep_of_channelStep {s : IterationState} {c : Channel} {t : LoopState}
    {outcome : Outcome} (h : channelStep cfg muxKey maxPorts s.loop c = .ok (t, outcome))
    (hnamed : ∀ resolved, outcome = .accepted resolved → EndpointPortsNamed memoEndpoints c) :
    ∃ s', iterationStep cfg memoEndpoints muxKey maxPorts s c = .ok (s', outcome) ∧ s'.loop = t := by
  unfold iterationStep
  rw [h]
  cases outcome with
  | rejected rejection => exact ⟨_, rfl, rfl⟩
  | accepted resolved =>
    obtain ⟨chEndpoints, hcollect⟩ :=
      (collectChannelEndpoints_ok_iff cfg).mpr (hnamed resolved rfl)
    dsimp only
    rw [hcollect]
    exact ⟨_, rfl, rfl⟩

theorem mem_endpoints_run {channels : List Channel} {s t : IterationState}
    {reports : List (Channel × Outcome)} (hs : s.endpoints = [])
    (h : Loop.run (iterationStep cfg memoEndpoints muxKey maxPorts) channels s = .ok (t, reports))
    (subset : EndpointSubset) :
    subset ∈ t.endpoints ↔ ∃ c resolved chEndpoints, (c, .accepted resolved) ∈ reports ∧
      collectChannelEndpoints cfg c memoEndpoints = .ok chEndpoints ∧ subset ∈ chEndpoints := by
  refine Loop.run_log_invariant (fun reports s => subset ∈ s.endpoints ↔
    ∃ c resolved chEndpoints, (c, .accepted resolved) ∈ reports ∧
      collectChannelEndpoints cfg c memoEndpoints = .ok chEndpoints ∧ subset ∈ chEndpoints)
    (by simp [hs]) ?_ h
  intro reports s c s' outcome _ ih hstep
  obtain ⟨⟨rejection, rfl⟩, hsame⟩ | ⟨resolved, chEndpoints, rfl, hcollect, hadded⟩ :=
    endpoints_iterationStep hstep
  · rw [hsame, ih]
    simp
  · rw [hadded, List.mem_append, ih]
    constructor
    · rintro (⟨d, resolved', ch, hmem, hch, hsub⟩ | hsub)
      · exact ⟨d, resolved', ch, List.mem_append_left _ hmem, hch, hsub⟩
      · exact ⟨c, resolved, chEndpoints, by simp, hcollect, hsub⟩
    · rintro ⟨d, resolved', ch, hmem, hch, hsub⟩
      rcases List.mem_append.mp hmem with hmem | hmem
      · exact Or.inl ⟨d, resolved', ch, hmem, hch, hsub⟩
      · simp only [List.mem_singleton, Prod.mk.injEq] at hmem
        obtain ⟨rfl, -⟩ := hmem
        rw [hcollect] at hch
        exact Or.inr (Except.ok.inj hch ▸ hsub)

theorem endpointPortsNamed_of_run {channels : List Channel} {s t : IterationState}
    {reports : List (Channel × Outcome)}
    (h : Loop.run (iterationStep cfg memoEndpoints muxKey maxPorts) channels s = .ok (t, reports))
    {c : Channel} {resolved : List ResolvedPort} (hmem : (c, .accepted resolved) ∈ reports) :
    EndpointPortsNamed memoEndpoints c := by
  have hall := Loop.run_log_invariant (fun reports _ => ∀ c resolved,
    (c, Outcome.accepted resolved) ∈ reports → EndpointPortsNamed memoEndpoints c)
    (by simp) ?_ h
  · exact hall c resolved hmem
  intro reports s c s' outcome _ ih hstep d resolved' hd
  rcases List.mem_append.mp hd with hd | hd
  · exact ih d resolved' hd
  · simp only [List.mem_singleton, Prod.mk.injEq] at hd
    obtain ⟨rfl, rfl⟩ := hd
    obtain ⟨⟨rejection, hreject⟩, -⟩ | ⟨-, chEndpoints, -, hcollect, -⟩ :=
      endpoints_iterationStep hstep
    · cases hreject
    · exact (collectChannelEndpoints_ok_iff cfg).mp ⟨chEndpoints, hcollect⟩

/-! ## The iteration and its pass -/

theorem reconcileChannels_eq_ok {input : PassInput} {r : IterationResult}
    (h : reconcileChannels cfg input memoEndpoints = .ok r) :
    ∃ start final, passStart cfg input = .ok start ∧
      Loop.run (iterationStep cfg memoEndpoints (input.mux.namespace_, input.mux.name)
        start.maxPorts) (sortChannels input.channels) ⟨start.loop, []⟩ = .ok (final, r.reports) ∧
      final.loop = r.final ∧ final.endpoints = r.endpoints ∧
      muxPass cfg input = .ok r.toPassResult := by
  unfold reconcileChannels at h
  cases hstart : passStart cfg input with
  | error e => simp [hstart] at h
  | ok start =>
    simp only [hstart] at h
    cases hrun : Loop.run (iterationStep cfg memoEndpoints (input.mux.namespace_, input.mux.name)
        start.maxPorts) (sortChannels input.channels) ⟨start.loop, []⟩ with
    | error e => simp [hrun] at h
    | ok result =>
      obtain ⟨final, reports⟩ := result
      simp only [hrun] at h
      cases htopology : topologyMappings cfg input.channels with
      | error e => simp [htopology] at h
      | ok topology =>
        simp only [htopology, Except.ok.injEq] at h
        subst h
        have hpass := Loop.run_image IterationState.loop
          (fun s c s' b => channelStep_of_iterationStep) hrun
        refine ⟨start, final, rfl, hrun, rfl, rfl, ?_⟩
        simp only [muxPass, hstart, hpass]

/-- An iteration ends if and only if its pass does and no address of an accepted channel is behind
an unnamed port. -/
theorem reconcileChannels_ok_iff {input : AdmittedPass} :
    (∃ r, reconcileChannels cfg input.toPassInput memoEndpoints = .ok r) ↔
      ∃ r, muxPass cfg input.toPassInput = .ok r ∧ ∀ c resolved,
        (c, .accepted resolved) ∈ r.reports → EndpointPortsNamed memoEndpoints c := by
  constructor
  · rintro ⟨r, hr⟩
    obtain ⟨start, final, -, hrun, -, -, hpass⟩ := reconcileChannels_eq_ok hr
    exact ⟨r.toPassResult, hpass, fun c resolved hmem => endpointPortsNamed_of_run hrun hmem⟩
  · rintro ⟨r, hpass, hnamed⟩
    have hreadable := input.muxPass_ok_iff.mp ⟨r, hpass⟩
    obtain ⟨start, hstart, hrun, -⟩ := muxPass_eq_ok hpass
    obtain ⟨final, hfinal, -⟩ : ∃ final, Loop.run (iterationStep cfg memoEndpoints
        (input.mux.namespace_, input.mux.name) start.maxPorts) (sortChannels input.channels)
        ⟨start.loop, []⟩ = .ok (final, r.reports) ∧ final.loop = r.final :=
      Loop.run_lift IterationState.loop hrun fun s c t outcome hmem hstep =>
        iterationStep_of_channelStep hstep fun resolved haccept => hnamed c resolved (haccept ▸ hmem)
    obtain ⟨topology, htopology⟩ : ∃ topology, topologyMappings cfg input.channels = .ok topology :=
      Loop.mapM_ok_iff.mpr fun c hc => hreadable.2 c (mem_sortChannels.mp hc)
    unfold reconcileChannels
    simp only [hstart, hfinal, htopology]
    exact ⟨_, rfl⟩

end SvcLbMux
