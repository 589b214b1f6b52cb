import SvcLbMux.Controller

namespace SvcLbMux

open Py

variable (cfg : Config)

/-- What a resolved channel asks of the registry of owners. -/
def requestsOf (channel : Channel) (resolved : List ResolvedPort) : Set (PortKey × String) :=
  {e | ∃ r ∈ resolved, e = (r.key, channel.owner cfg r.port)}

def LoopState.registry (s : LoopState) : Registry PortKey String := Registry.ofDict s.portOwners

@[simp] theorem mem_registry (s : LoopState) (key : PortKey) (owner : String) :
    (key, owner) ∈ s.registry.holds ↔ s.portOwners.get key = some owner := Iff.rfl

variable {cfg} {muxKey : String × String} {maxPorts : Option Int} {s s' : LoopState}
  {c : Channel} {outcome : Outcome}

theorem requests_muxPortsOf (resolved : List ResolvedPort) :
    requests c {m | m ∈ muxPortsOf cfg c resolved} = requestsOf cfg c resolved := by
  ext ⟨k, o⟩
  simp only [requests, requestsOf, muxPortsOf, List.mem_toFinset, Set.mem_ofPred_eq, List.mem_map]
  constructor
  · rintro ⟨m, ⟨r, hr, rfl⟩, heq⟩
    exact ⟨r, hr, heq⟩
  · rintro ⟨r, hr, heq⟩
    exact ⟨_, ⟨r, hr, rfl⟩, heq⟩

theorem conflicts_eq_nil_iff (cfg : Config) (s : LoopState) (c : Channel)
    (resolved : List ResolvedPort) :
    (findMuxPortConflicts s.portOwners c (muxPortsOf cfg c resolved)).1 = [] ↔
      s.registry.Compatible (requestsOf cfg c resolved) := by
  rw [findMuxPortConflicts_eq_nil_iff, requests_muxPortsOf]
  rfl

/-! ## One turn -/

/-- A channel is turned away when it does not fit, does not resolve or asks for what others own. -/
def TurnedAway (cfg : Config) (maxPorts : Option Int) (s : LoopState) (c : Channel) : Prop :=
  wouldExceedMuxPortLimit s.ports c maxPorts = true ∨
    ∀ resolved, (processChannelPorts cfg c s.muxState).1 = .ok resolved →
      ¬ s.registry.Compatible (requestsOf cfg c resolved)

theorem channelStep_cases (h : channelStep cfg muxKey maxPorts s c = .ok (s', outcome)) :
    (TurnedAway cfg maxPorts s c ∧ (∃ rejection, outcome = .rejected rejection) ∧
      s'.ports = s.ports ∧ s'.portOwners = s.portOwners ∧
      s'.muxState = if wouldExceedMuxPortLimit s.ports c maxPorts then s.muxState
        else (processChannelPorts cfg c s.muxState).2) ∨
    ∃ resolved, ¬ TurnedAway cfg maxPorts s c ∧ outcome = .accepted resolved ∧
      (processChannelPorts cfg c s.muxState).1 = .ok resolved ∧
      s.registry.Compatible (requestsOf cfg c resolved) ∧
      s'.ports = s.ports ∪ muxPortsOf cfg c resolved ∧
      s'.registry = s.registry.offer (requestsOf cfg c resolved) ∧
      (processChannelPorts cfg c s.muxState).2.recordChannelClaims cfg c (portsAnnotationOf resolved) =
        .ok s'.muxState := by
  unfold channelStep at h
  split_ifs at h with hlimit
  · obtain ⟨rfl, rfl⟩ := Prod.mk.inj (Except.ok.inj h)
    exact Or.inl ⟨Or.inl hlimit, ⟨_, rfl⟩, rfl, rfl, (if_pos hlimit).symm⟩
  · dsimp only at h
    cases hresolve : (processChannelPorts cfg c s.muxState).1 with
    | error e =>
      -- The ports before the one that failed may have been allocated; the state keeps them.
      rw [hresolve] at h
      obtain ⟨rfl, rfl⟩ := Prod.mk.inj (Except.ok.inj h)
      refine Or.inl ⟨Or.inr fun resolved hok => ?_, ⟨_, rfl⟩, rfl, rfl,
        (if_neg hlimit).symm⟩
      rw [hresolve] at hok
      cases hok
    | ok resolved =>
      rw [hresolve] at h
      dsimp only at h
      have hcompat := conflicts_eq_nil_iff cfg s c resolved
      have hregistry := ofDict_findMuxPortConflicts s.portOwners c (muxPortsOf cfg c resolved)
      rw [requests_muxPortsOf] at hregistry
      split_ifs at h with hconflicts
      · obtain ⟨rfl, rfl⟩ := Prod.mk.inj (Except.ok.inj h)
        refine Or.inl ⟨Or.inr fun resolved' hok => ?_, ⟨_, rfl⟩, rfl, if_neg hconflicts,
          (if_neg hlimit).symm⟩
        rw [hresolve] at hok
        obtain rfl := Except.ok.inj hok
        exact fun hc => hconflicts (hcompat.mpr hc)
      · have hc := hcompat.mp (not_not.mp hconflicts)
        split at h
        · cases h
        · rename_i muxState hrecord
          obtain ⟨rfl, rfl⟩ := Prod.mk.inj (Except.ok.inj h)
          refine Or.inr ⟨resolved, ?_, rfl, rfl, hc, rfl, hregistry, hrecord⟩
          rintro (hexceed | haway)
          · exact hlimit hexceed
          · exact haway resolved hresolve hc

theorem accepted_of_not_turnedAway (h : channelStep cfg muxKey maxPorts s c = .ok (s', outcome))
    (hstays : ¬ TurnedAway cfg maxPorts s c) {resolved : List ResolvedPort}
    (hresolve : (processChannelPorts cfg c s.muxState).1 = .ok resolved) :
    outcome = .accepted resolved := by
  obtain ⟨haway, -⟩ | ⟨resolved', -, rfl, hresolve', -⟩ := channelStep_cases h
  · exact absurd haway hstays
  · rw [hresolve] at hresolve'
    rw [Except.ok.inj hresolve']

/-- What happened in a turn in which the channel was accepted. -/
structure AcceptedTurn (cfg : Config) (maxPorts : Option Int) (s : LoopState) (c : Channel)
    (resolved : List ResolvedPort) (s' : LoopState) : Prop where
  stays : ¬ TurnedAway cfg maxPorts s c
  resolves : (processChannelPorts cfg c s.muxState).1 = .ok resolved
  compatible : s.registry.Compatible (requestsOf cfg c resolved)
  ports : s'.ports = s.ports ∪ muxPortsOf cfg c resolved
  registry : s'.registry = s.registry.offer (requestsOf cfg c resolved)
  recorded : (processChannelPorts cfg c s.muxState).2.recordChannelClaims cfg c
    (portsAnnotationOf resolved) = .ok s'.muxState

theorem AcceptedTurn.fits {resolved : List ResolvedPort}
    (h : AcceptedTurn cfg maxPorts s c resolved s') :
    wouldExceedMuxPortLimit s.ports c maxPorts = false :=
  Bool.eq_false_iff.mpr fun hexceed => h.stays (Or.inl hexceed)

theorem AcceptedTurn.holds {resolved : List ResolvedPort}
    (h : AcceptedTurn cfg maxPorts s c resolved s') :
    s'.registry.holds = s.registry.holds ∪ requestsOf cfg c resolved := by
  rw [h.registry, Registry.offer_of_compatible h.compatible]

theorem acceptedTurn_of_step {resolved : List ResolvedPort}
    (h : channelStep cfg muxKey maxPorts s c = .ok (s', .accepted resolved)) :
    AcceptedTurn cfg maxPorts s c resolved s' := by
  obtain ⟨-, ⟨rejection, hreject⟩, -⟩ |
    ⟨resolved', hstays, heq, hresolve, hcompat, hports, hregistry, hrecord⟩ := channelStep_cases h
  · cases hreject
  · obtain rfl : resolved = resolved' := by injection heq
    exact ⟨hstays, hresolve, hcompat, hports, hregistry, hrecord⟩

/-! ## What a turn leaves alone -/

/-- What the allocations and the claims for the ports of a channel preserve, its turn preserves. -/
theorem channelStep_invariant (P : MuxState → Prop)
    (hallocate : ∀ st, ∀ p ∈ c.ports, P st → P (MuxState.allocate cfg c p st).2)
    (hset : ∀ st, ∀ p ∈ c.ports, ∀ muxPort mode, P st →
      P (st.setClaim (.fromChannelPort c p) p.port muxPort mode))
    (hs : P s.muxState) (h : channelStep cfg muxKey maxPorts s c = .ok (s', outcome)) :
    P s'.muxState := by
  have hresolve : P (processChannelPorts cfg c s.muxState).2 :=
    MuxState.resolve_invariant P hallocate hs
  obtain ⟨-, -, -, -, hstate⟩ | ⟨resolved, -, -, -, -, -, -, hrecord⟩ := channelStep_cases h
  · rw [hstate]
    split_ifs
    · exact hs
    · exact hresolve
  · exact MuxState.recordChannelClaims_invariant P hset hresolve hrecord

theorem fixed_channelStep (h : channelStep cfg muxKey maxPorts s c = .ok (s', outcome)) :
    s'.muxState.fixed = s.muxState.fixed :=
  channelStep_invariant (fun st => st.fixed = s.muxState.fixed)
    (fun _ p _ hst => (MuxState.fixed_allocate c p).trans hst)
    (fun _ _ _ _ _ hst => (MuxState.fixed_setClaim _ _ _ _ _).trans hst) rfl h

theorem wellKeyed_channelStep (hs : WellKeyed s.muxState.claims)
    (h : channelStep cfg muxKey maxPorts s c = .ok (s', outcome)) :
    WellKeyed s'.muxState.claims :=
  channelStep_invariant (fun st => WellKeyed st.claims)
    (fun _ p _ hst => MuxState.wellKeyed_allocate hst c p)
    (fun _ _ _ _ _ hst => MuxState.wellKeyed_setClaim hst _ _ _ _) hs h

theorem normalized_channelStep (hs : MuxState.Normalized s.muxState.claims)
    (h : channelStep cfg muxKey maxPorts s c = .ok (s', outcome)) :
    MuxState.Normalized s'.muxState.claims :=
  channelStep_invariant (fun st => MuxState.Normalized st.claims)
    (fun _ p _ hst => MuxState.normalized_allocate hst c p)
    (fun _ _ _ _ _ hst => MuxState.normalized_setClaim hst _ _ _ _) hs h

theorem get_claims_channelStep_ne {key : String} (hkey : ∀ p ∈ c.ports, c.claimKey p ≠ key)
    (h : channelStep cfg muxKey maxPorts s c = .ok (s', outcome)) :
    s'.muxState.claims.get key = s.muxState.claims.get key :=
  channelStep_invariant (fun st => st.claims.get key = s.muxState.claims.get key)
    (fun _ p hp hst => (MuxState.get_claims_allocate_ne c p (hkey p hp)).trans hst)
    (fun _ p hp _ _ hst => by
      rw [MuxState.get_claims_setClaim]
      exact (if_neg (hkey p hp)).trans hst) rfl h

theorem holds_subset_channelStep (h : channelStep cfg muxKey maxPorts s c = .ok (s', outcome)) :
    s.registry.holds ⊆ s'.registry.holds := by
  obtain ⟨-, -, -, howners, -⟩ | ⟨resolved, -, -, -, -, -, hregistry, -⟩ := channelStep_cases h
  · rw [LoopState.registry, LoopState.registry, howners]
  · rw [hregistry]
    exact Registry.holds_subset_offer _ _

/-! ## Turns of admitted channels -/

section Admitted

def RangesValid (st : MuxState) : Prop :=
  ∀ port, containsPort st.ranges port = true → 1 ≤ port ∧ port ≤ 65535

theorem rangesValid_of_fixed {st st' : MuxState} (hst : RangesValid st)
    (h : st'.fixed = st.fixed) : RangesValid st' := by
  intro port hport
  rw [MuxState.ranges_of_fixed h] at hport
  exact hst port hport

variable (hc : c.Admitted) (hwk : WellKeyed s.muxState.claims) (hranges : RangesValid s.muxState)

include hc hwk hranges

theorem resolved_spec {resolved : List ResolvedPort}
    (hresolve : (processChannelPorts cfg c s.muxState).1 = .ok resolved) :
    ∃ explicitPorts, channelPortClaims cfg c = .ok explicitPorts ∧
      resolved.map ResolvedPort.port = c.ports ∧
      (∀ r ∈ resolved,
        MuxState.Resolution cfg c explicitPorts (processChannelPorts cfg c s.muxState).2 r) ∧
      (processChannelPorts cfg c s.muxState).2.recordChannelClaims cfg c (portsAnnotationOf resolved) =
        .ok (MuxState.recordResolved cfg c (processChannelPorts cfg c s.muxState).2 resolved) := by
  obtain ⟨explicitPorts, hclaims, hports, hall⟩ := MuxState.resolve_spec hc hwk hresolve
  refine ⟨explicitPorts, hclaims, hports, hall, ?_⟩
  refine MuxState.recordChannelClaims_eq_ok hc (channelPortClaims_eq_ok hclaims).2 hports
    fun r hr => ?_
  by_cases hauto : explicitPorts.get r.port.portName = some .auto
  · exact rangesValid_of_fixed hranges MuxState.fixed_resolve _ ((hall r hr).auto hauto).inRange
  · exact ((hall r hr).static hauto).2

/-- The turn of an admitted channel does not raise. -/
theorem channelStep_ok (muxKey : String × String) (maxPorts : Option Int) :
    ∃ s' outcome, channelStep cfg muxKey maxPorts s c = .ok (s', outcome) := by
  unfold channelStep
  split_ifs with hlimit
  · exact ⟨_, _, rfl⟩
  · dsimp only
    cases hresolve : (processChannelPorts cfg c s.muxState).1 with
    | error e => exact ⟨_, _, rfl⟩
    | ok resolved =>
      obtain ⟨explicitPorts, -, -, -, hrecord⟩ := resolved_spec hc hwk hranges hresolve
      dsimp only
      split_ifs
      · exact ⟨_, _, rfl⟩
      · rw [hrecord]
        exact ⟨_, _, rfl⟩

theorem accepted_spec {resolved : List ResolvedPort}
    (h : channelStep cfg muxKey maxPorts s c = .ok (s', .accepted resolved)) :
    ∃ explicitPorts, channelPortClaims cfg c = .ok explicitPorts ∧
      resolved.map ResolvedPort.port = c.ports ∧
      (∀ r ∈ resolved,
        MuxState.Resolution cfg c explicitPorts (processChannelPorts cfg c s.muxState).2 r) ∧
      s'.muxState =
        MuxState.recordResolved cfg c (processChannelPorts cfg c s.muxState).2 resolved := by
  have hturn := acceptedTurn_of_step h
  obtain ⟨explicitPorts, hclaims, hports, hall, hrecord⟩ :=
    resolved_spec hc hwk hranges hturn.resolves
  rw [hturn.recorded] at hrecord
  exact ⟨explicitPorts, hclaims, hports, hall, Except.ok.inj hrecord⟩

theorem recorded_of_accepted {resolved : List ResolvedPort}
    (h : channelStep cfg muxKey maxPorts s c = .ok (s', .accepted resolved)) {r : ResolvedPort}
    (hr : r ∈ resolved) : r.port ∈ c.ports ∧
      s'.muxState.claims.get (c.claimKey r.port) = some (MuxState.recordedClaim cfg c r) := by
  obtain ⟨explicitPorts, hclaims, hports, -, hstate⟩ := accepted_spec hc hwk hranges h
  have hkeys := MuxState.nodup_claimKeys hc (channelPortClaims_eq_ok hclaims).2 hports
  rw [hstate]
  exact ⟨hports ▸ List.mem_map_of_mem hr, MuxState.get_claims_recordResolved hkeys hr⟩

end Admitted

end SvcLbMux
