import SvcLbMux.ExclusivePorts

namespace SvcLbMux

open Py

variable {cfg : Config}

/-! ## One pass -/

/-- The invariant of the loop: the claims exclude each other, each is for a declared port, what is
statically requested is reserved, and the listener of each claim either is known to the owners as
its own or is not reserved. -/
structure ClaimsKept (cfg : Config) (channels : List Channel) (s : LoopState) : Prop where
  exclusive : ClaimsExclusive s.muxState.claims
  declared : ∀ key claim, s.muxState.claims.get key = some claim →
    ∃ c ∈ channels, ∃ p ∈ c.ports, key = c.claimKey p
  reserved : ∀ c ∈ channels, ∀ key, StaticallyRequests cfg c key → key ∈ s.muxState.reservedPorts
  known : ∀ key claim listener, s.muxState.claims.get key = some claim →
    claim.listener = some listener →
    (listener, claimOwner cfg claim) ∈ s.registry.holds ∨ listener ∉ s.muxState.reservedPorts

section Step

variable {input : AdmittedPass} {muxKey : String × String} {maxPorts : Option Int}
  {s s' : LoopState} {c : Channel} {outcome : Outcome}

/-- Allocations go to ports that are not statically requested, so that what is known of the claims
stays known while a channel is resolved. -/
theorem known_processChannelPorts (hs : ClaimsKept cfg input.channels s) (key : String)
    (claim : Claim) (listener : PortKey)
    (hget : (processChannelPorts cfg c s.muxState).2.claims.get key = some claim)
    (hl : claim.listener = some listener) :
    (listener, claimOwner cfg claim) ∈ s.registry.holds ∨ listener ∉ s.muxState.reservedPorts := by
  let P := fun st : MuxState => st.fixed = s.muxState.fixed ∧
    ∀ key claim listener, st.claims.get key = some claim → claim.listener = some listener →
      (listener, claimOwner cfg claim) ∈ s.registry.holds ∨ listener ∉ s.muxState.reservedPorts
  have hP : P (processChannelPorts cfg c s.muxState).2 := by
    refine MuxState.resolve_invariant P ?_ ⟨rfl, hs.known⟩
    rintro st p - ⟨hfixed, hknown⟩
    refine ⟨(MuxState.fixed_allocate c p).trans hfixed, ?_⟩
    obtain ⟨e, h⟩ | ⟨n, -, h⟩ | ⟨n, -, -, hfree, h⟩ := MuxState.allocate_cases cfg st c p
    · rwa [h]
    · rwa [h]
    · rw [h]
      intro key claim listener hget hl
      rw [MuxState.get_claims_setClaim] at hget
      split_ifs at hget with hkey
      · obtain rfl := Option.some.inj hget
        rw [listener_ofRef] at hl
        obtain rfl := Option.some.inj hl
        refine Or.inr fun hreserved => hfree (MuxState.mem_usedPortProtocols.mpr (Or.inl ?_))
        rwa [MuxState.reservedPorts_of_fixed hfixed]
      · exact hknown key claim listener hget hl
  exact hP.2 key claim listener hget hl

theorem declared_processChannelPorts (hs : ClaimsKept cfg input.channels s)
    (hc : c ∈ input.channels) {key : String} {claim : Claim}
    (hget : (processChannelPorts cfg c s.muxState).2.claims.get key = some claim) :
    ∃ d ∈ input.channels, ∃ q ∈ d.ports, key = d.claimKey q := by
  let P := fun st : MuxState => ∀ key claim, st.claims.get key = some claim →
    ∃ d ∈ input.channels, ∃ q ∈ d.ports, key = d.claimKey q
  refine (MuxState.resolve_invariant P ?_ hs.declared : P _) key claim hget
  intro st p hp hst key claim hget
  by_cases hkey : c.claimKey p = key
  · exact ⟨c, hc, p, hp, hkey.symm⟩
  · rw [MuxState.get_claims_allocate_ne c p hkey] at hget
    exact hst key claim hget

/-- The listener of a resolved port is free of the claims of other ports, once nobody else owns
it. -/
theorem claimKey_eq_of_listener (hdigest : DigestInjectiveOn cfg input.channels)
    (hs : s.Sound) (hkept : ClaimsKept cfg input.channels s) (hc : c ∈ input.channels)
    {resolved : List ResolvedPort}
    (hresolve : (processChannelPorts cfg c s.muxState).1 = .ok resolved)
    (hcompat : s.registry.Compatible (requestsOf cfg c resolved)) {r : ResolvedPort}
    (hr : r ∈ resolved) {key : String} {claim : Claim}
    (hget : (processChannelPorts cfg c s.muxState).2.claims.get key = some claim)
    (hl : claim.listener = some r.key) : key = c.claimKey r.port := by
  have hadmitted := input.admitted c hc
  obtain ⟨explicitPorts, hclaims, hports, hall, -⟩ :=
    resolved_spec hadmitted hs.wellKeyed hs.ranges hresolve
  have hp : r.port ∈ c.ports := hports ▸ List.mem_map_of_mem hr
  by_cases hauto : explicitPorts.get r.port.portName = some .auto
  · exact ((hall r hr).auto hauto).alone key claim hget hl
  -- A static port is reserved, so the claim is known to its owner, who must be the channel.
  have hstatic : StaticallyRequests cfg c r.key :=
    ⟨explicitPorts, hclaims, r.port, hp, hauto, by rw [ResolvedPort.key, ((hall r hr).static hauto).1]⟩
  have hholds : (r.key, claimOwner cfg claim) ∈ s.registry.holds :=
    (known_processChannelPorts hkept key claim _ hget hl).resolve_right
      (not_not.mpr (hkept.reserved c hc _ hstatic))
  have howner : claimOwner cfg claim = c.owner cfg r.port :=
    hcompat (Or.inl hholds) (Or.inr ⟨r, hr, rfl⟩)
  obtain ⟨d, hd, q, hq, rfl⟩ := declared_processChannelPorts hkept hc hget
  have hwk : WellKeyed (processChannelPorts cfg c s.muxState).2.claims :=
    MuxState.wellKeyed_resolve hs.wellKeyed
  obtain ⟨howner', hproto⟩ := claimOwner_of_claimKey cfg hwk (input.admitted d hd) hq hget
  rw [howner'] at howner
  obtain ⟨hkey, hname⟩ := hdigest d hd q hq c hc r.port hp (muxName_eq_of_owner_eq howner)
  obtain rfl := input.eq_of_key_eq hd hc hkey
  obtain rfl := eq_of_portName_eq hadmitted.names hp hq
    ((channelPortClaims_eq_ok hclaims).2 _ hp) hname.symm
  rfl

/-- A claim after an accepted turn is recorded for a port of the channel, or it was there when the
channel was resolved. -/
theorem recorded_or_kept {st : MuxState} {resolved : List ResolvedPort}
    (hkeys : (resolved.map fun r => c.claimKey r.port).Nodup) {key : String} {claim : Claim}
    (hget : (MuxState.recordResolved cfg c st resolved).claims.get key = some claim) :
    (∃ r ∈ resolved, key = c.claimKey r.port ∧ claim = MuxState.recordedClaim cfg c r) ∨
      st.claims.get key = some claim := by
  by_cases hkey : ∃ r ∈ resolved, c.claimKey r.port = key
  · obtain ⟨r, hr, rfl⟩ := hkey
    rw [MuxState.get_claims_recordResolved hkeys hr] at hget
    exact Or.inl ⟨r, hr, rfl, (Option.some.inj hget).symm⟩
  · push Not at hkey
    rw [MuxState.get_claims_recordResolved_ne hkey] at hget
    exact Or.inr hget

theorem claimOwner_recordedClaim (r : ResolvedPort) :
    claimOwner cfg (MuxState.recordedClaim cfg c r) = c.owner cfg r.port :=
  claimOwner_of_ref cfg (ref_ofRef _ _ _ _)

theorem claimKey_eq_of_key_eq (hdigest : DigestInjectiveOn cfg input.channels)
    (hc : c ∈ input.channels) (hnamed : ∀ p ∈ c.ports, p.unnamed = false)
    {resolved : List ResolvedPort} (hports : resolved.map ResolvedPort.port = c.ports)
    (hcompat : s.registry.Compatible (requestsOf cfg c resolved)) {r r' : ResolvedPort}
    (hr : r ∈ resolved) (hr' : r' ∈ resolved) (h : r.key = r'.key) :
    c.claimKey r.port = c.claimKey r'.port := by
  have hp : r.port ∈ c.ports := hports ▸ List.mem_map_of_mem hr
  have hp' : r'.port ∈ c.ports := hports ▸ List.mem_map_of_mem hr'
  have howner : c.owner cfg r.port = c.owner cfg r'.port :=
    ((Registry.compatible_iff _ _).mp hcompat).2 ⟨r, hr, rfl⟩ ⟨r', hr', by rw [h]⟩
  obtain ⟨-, hname⟩ := hdigest c hc _ hp c hc _ hp' (muxName_eq_of_owner_eq howner)
  rw [eq_of_portName_eq (input.admitted c hc).names hp hp' (hnamed _ hp) hname]

theorem claimsExclusive_recordResolved (hdigest : DigestInjectiveOn cfg input.channels)
    (hs : s.Sound) (hkept : ClaimsKept cfg input.channels s) (hc : c ∈ input.channels)
    {resolved : List ResolvedPort}
    (hresolve : (processChannelPorts cfg c s.muxState).1 = .ok resolved)
    (hcompat : s.registry.Compatible (requestsOf cfg c resolved)) :
    ClaimsExclusive (MuxState.recordResolved cfg c (processChannelPorts cfg c s.muxState).2
      resolved).claims := by
  obtain ⟨hports, hnamed⟩ := ports_of_processChannelPorts hresolve
  have hkeys := MuxState.nodup_claimKeys (input.admitted c hc) hnamed hports
  intro key key' claim claim' listener hget hget' hl hl'
  rcases recorded_or_kept hkeys hget with ⟨r, hr, rfl, rfl⟩ | hget
  · rw [MuxState.listener_recordedClaim] at hl
    obtain rfl := Option.some.inj hl
    rcases recorded_or_kept hkeys hget' with ⟨r', hr', rfl, rfl⟩ | hget'
    · rw [MuxState.listener_recordedClaim] at hl'
      exact claimKey_eq_of_key_eq hdigest hc hnamed hports hcompat hr hr' (Option.some.inj hl').symm
    · exact (claimKey_eq_of_listener hdigest hs hkept hc hresolve hcompat hr hget' hl').symm
  · rcases recorded_or_kept hkeys hget' with ⟨r', hr', rfl, rfl⟩ | hget'
    · rw [MuxState.listener_recordedClaim] at hl'
      obtain rfl := Option.some.inj hl'
      exact claimKey_eq_of_listener hdigest hs hkept hc hresolve hcompat hr' hget hl
    · exact MuxState.claimsExclusive_resolve hkept.exclusive key key' claim claim' listener hget
        hget' hl hl'

/-- When a channel is rejected, nobody owns more than before, and the claims are those before or after
resolving. -/
theorem claimsKept_rejected (hkept : ClaimsKept cfg input.channels s) (hc : c ∈ input.channels)
    {rejection : Rejection}
    (h : channelStep cfg muxKey maxPorts s c = .ok (s', .rejected rejection)) :
    ClaimsKept cfg input.channels s' := by
  have hreserved := MuxState.reservedPorts_of_fixed (fixed_channelStep h)
  obtain ⟨-, -, -, howners, hstate⟩ | ⟨resolved, -, haccept, -⟩ := channelStep_cases h
  · have hregistry : s'.registry = s.registry := by
      rw [LoopState.registry, LoopState.registry, howners]
    refine ⟨?_, ?_, ?_, ?_⟩
    · rw [hstate]
      split_ifs
      · exact hkept.exclusive
      · exact MuxState.claimsExclusive_resolve hkept.exclusive
    · rw [hstate]
      split_ifs
      · exact hkept.declared
      · exact fun key claim hget => declared_processChannelPorts hkept hc hget
    · rw [hreserved]
      exact hkept.reserved
    · rw [hregistry, hreserved, hstate]
      split_ifs
      · exact hkept.known
      · exact known_processChannelPorts hkept
  · cases haccept

/-- When a channel is accepted, a claim is recorded for what it owns now, or was kept. -/
theorem claimsKept_accepted (hdigest : DigestInjectiveOn cfg input.channels) (hs : s.Sound)
    (hkept : ClaimsKept cfg input.channels s) (hc : c ∈ input.channels)
    {resolved : List ResolvedPort}
    (h : channelStep cfg muxKey maxPorts s c = .ok (s', .accepted resolved)) :
    ClaimsKept cfg input.channels s' := by
  have hreserved := MuxState.reservedPorts_of_fixed (fixed_channelStep h)
  have hturn := acceptedTurn_of_step h
  obtain ⟨explicitPorts, hclaims, hports, -, hstate⟩ :=
    accepted_spec (input.admitted c hc) hs.wellKeyed hs.ranges h
  have hkeys := MuxState.nodup_claimKeys (input.admitted c hc)
    (channelPortClaims_eq_ok hclaims).2 hports
  refine ⟨?_, ?_, ?_, ?_⟩
  · rw [hstate]
    exact claimsExclusive_recordResolved hdigest hs hkept hc hturn.resolves hturn.compatible
  · rw [hstate]
    intro key claim hget
    rcases recorded_or_kept hkeys hget with ⟨r, hr, rfl, rfl⟩ | hget
    · exact ⟨c, hc, r.port, hports ▸ List.mem_map_of_mem hr, rfl⟩
    · exact declared_processChannelPorts hkept hc hget
  · rw [hreserved]
    exact hkept.reserved
  · rw [hturn.holds, hreserved, hstate]
    intro key claim listener hget hl
    rcases recorded_or_kept hkeys hget with ⟨r, hr, rfl, rfl⟩ | hget
    · rw [MuxState.listener_recordedClaim] at hl
      obtain rfl := Option.some.inj hl
      rw [claimOwner_recordedClaim]
      exact Or.inl (Or.inr ⟨r, hr, rfl⟩)
    · exact (known_processChannelPorts hkept key claim listener hget hl).imp_left Or.inl

theorem claimsKept_step (hdigest : DigestInjectiveOn cfg input.channels) (hs : s.Sound)
    (hkept : ClaimsKept cfg input.channels s) (hc : c ∈ input.channels)
    (h : channelStep cfg muxKey maxPorts s c = .ok (s', outcome)) :
    ClaimsKept cfg input.channels s' := by
  cases outcome with
  | rejected rejection => exact claimsKept_rejected hkept hc h
  | accepted resolved => exact claimsKept_accepted hdigest hs hkept hc h

end Step

section Pass

variable {input : AdmittedPass} {start : PassStart} {e : StartEvidence}

theorem claimsKept_start (he : Started cfg input.toPassInput start e)
    (hclaims : MuxState.ListenersDistinct (stateClaims e.state)) :
    ClaimsKept cfg input.channels start.loop := by
  have hexclusive : ClaimsExclusive (e.muxState input.toPassInput).claims :=
    MuxState.claimsExclusive_init hclaims
  refine ⟨?_, ?_, ?_, ?_⟩
  · rw [he.loop]
    exact hexclusive
  · rw [he.loop]
    intro key claim hget
    obtain ⟨hactive, -⟩ := MuxState.exists_mem_of_get_claims_init hget
    obtain ⟨c, hc, p, hp, -, hkey⟩ := mem_activeClaimKeys.mp hactive
    exact ⟨c, mem_sortChannels.mp hc, p, hp, hkey.symm⟩
  · rw [he.loop]
    intro c hc key hstatic
    exact (mem_collectStaticPortClaims he.reserved key).mpr ⟨c, mem_sortChannels.mpr hc, hstatic⟩
  · intro key claim listener hget hl
    rw [he.loop] at hget
    refine Or.inl ?_
    rw [mem_registry, he.get_portOwners, MuxState.get_portOwners_of_claim hexclusive hget hl]
    rfl

theorem claimsKept_of_run (hdigest : DigestInjectiveOn cfg input.channels)
    (he : Started cfg input.toPassInput start e)
    (hclaims : MuxState.ListenersDistinct (stateClaims e.state)) {channels : List Channel}
    (hsub : channels ⊆ sortChannels input.channels) {s : LoopState}
    {reports : List (Channel × Outcome)}
    (hrun : Loop.run (channelStep cfg (input.mux.namespace_, input.mux.name) start.maxPorts) channels
      start.loop = .ok (s, reports)) : s.Sound ∧ ClaimsKept cfg input.channels s := by
  refine Loop.run_invariant (fun s => s.Sound ∧ ClaimsKept cfg input.channels s)
    ⟨he.sound, claimsKept_start he hclaims⟩ ?_ hrun
  rintro s c s' outcome hc ⟨hs, hkept⟩ hstep
  exact ⟨sound_channelStep hs hstep,
    claimsKept_step hdigest hs hkept (mem_sortChannels.mp (hsub hc)) hstep⟩

end Pass

/-! ## The state ConfigMap -/

def storedClaims (configmap : Option ConfigMap) : List Claim :=
  match configmap with
  | none => []
  | some configmap =>
    match configmap.data with
    | .document state => stateClaims state
    | _ => []

theorem stateClaims_of_load {store : ConfigMapAllocationStore} {configmap : Option ConfigMap}
    {state : Option StateDoc} (h : store.load configmap = .ok state) :
    stateClaims state = storedClaims configmap := by
  unfold ConfigMapAllocationStore.load at h
  split at h
  · obtain rfl := Except.ok.inj h
    rfl
  · rename_i configmap
    split at h
    · cases h
    · split at h
      · cases h
      · rename_i state' hdecode
        split at h
        · cases h
        · obtain rfl := Except.ok.inj h
          unfold ConfigMapAllocationStore.decodeState at hdecode
          unfold storedClaims
          split at hdecode
          · rename_i hdata
            obtain rfl := Except.ok.inj hdecode
            simp [hdata, stateClaims]
          · cases hdecode
          · rename_i doc hdata
            obtain rfl := Except.ok.inj hdecode
            simp [hdata]

theorem storedClaims_save (store : ConfigMapAllocationStore) (st : MuxState) :
    storedClaims (some (store.save st.toState)) = stateClaims (some st.toState) := rfl

theorem listenersDistinct_toState {st : MuxState} (h : ClaimsExclusive st.claims) :
    MuxState.ListenersDistinct (stateClaims (some st.toState)) := by
  change ((st.claims.entries.insertionSort (·.1 ≤ ·.1)).map Prod.snd).Pairwise
    MuxState.ListenersDiffer
  have hperm : (st.claims.entries.insertionSort (·.1 ≤ ·.1)).Perm st.claims.entries :=
    List.perm_insertionSort _ _
  have hnodup : ((st.claims.entries.insertionSort (·.1 ≤ ·.1)).map Prod.fst).Nodup :=
    (hperm.map Prod.fst).nodup_iff.mpr st.claims.nodup
  rw [List.pairwise_map]
  rw [List.Nodup, List.pairwise_map] at hnodup
  refine hnodup.imp_of_mem ?_
  rintro ⟨key, claim⟩ ⟨key', claim'⟩ hmem hmem' hne listener hl hl'
  exact hne (h key key' claim claim' listener
    ((Dict.get_eq_some_iff _ _ _).mpr (hperm.subset hmem))
    ((Dict.get_eq_some_iff _ _ _).mpr (hperm.subset hmem')) hl hl')

theorem listenersDistinct_muxPass (input : AdmittedPass)
    (hdigest : DigestInjectiveOn cfg input.channels) {r : PassResult}
    (hpass : muxPass cfg input.toPassInput = .ok r)
    (h : MuxState.ListenersDistinct (storedClaims input.configmap)) :
    MuxState.ListenersDistinct (storedClaims r.configmap) := by
  obtain ⟨start, hstart, hrun, -, hconfigmap⟩ := muxPass_eq_ok hpass
  obtain ⟨e, he⟩ := started_of_passStart hstart
  rw [hconfigmap]
  rcases he.loaded with ⟨-, -, -, hstore⟩ | ⟨hload, -, hstore⟩
  · rw [hstore]
    exact h
  · rw [hstore, savedConfigmap]
    have hclaims : MuxState.ListenersDistinct (stateClaims e.state) := by
      rwa [stateClaims_of_load hload]
    split_ifs
    · rw [storedClaims_save]
      exact listenersDistinct_toState
        (claimsKept_of_run hdigest he hclaims (List.Subset.refl _) hrun).2.exclusive
    · exact h

/-! ## Runs of passes -/

def AdmittedPass.withConfigmap (input : AdmittedPass) (configmap : Option ConfigMap) :
    AdmittedPass := { input with configmap := configmap }

/-- The state ConfigMap after a pass; a pass that raises has not written it. -/
def configmapAfter (cfg : Config) (configmap : Option ConfigMap) (input : AdmittedPass) :
    Option ConfigMap :=
  match muxPass cfg (input.withConfigmap configmap).toPassInput with
  | .error _ => configmap
  | .ok r => r.configmap

/-- The state ConfigMap after a run of passes, between which everything else may change. -/
def configmapAfterRun (cfg : Config) (configmap : Option ConfigMap) (inputs : List AdmittedPass) :
    Option ConfigMap := inputs.foldl (configmapAfter cfg) configmap

/-- After every run of passes the persisted claims are on distinct listeners, those of rejected
channels included, provided they were at the start. -/
theorem persisted_claims_exclusive (cfg : Config) (configmap : Option ConfigMap)
    (inputs : List AdmittedPass) (hdigest : ∀ input ∈ inputs, DigestInjectiveOn cfg input.channels)
    (hstart : MuxState.ListenersDistinct (storedClaims configmap)) :
    MuxState.ListenersDistinct (storedClaims (configmapAfterRun cfg configmap inputs)) := by
  induction inputs generalizing configmap with
  | nil => exact hstart
  | cons input inputs ih =>
    refine ih (configmapAfter cfg configmap input)
      (fun i hi => hdigest i (List.mem_cons_of_mem _ hi)) ?_
    unfold configmapAfter
    split
    · exact hstart
    · rename_i r hr
      exact listenersDistinct_muxPass (input.withConfigmap configmap)
        (hdigest input (by simp)) hr hstart

/-- First `api` gets port 9000 allocated; then `web` is edited to ask for that port. -/
def movedRun : List AdmittedPass :=
  [{ toPassInput := autoAndStaticPass
     admitted := by decide +kernel
     distinct := by decide +kernel },
    { mux := sampleMux [("svc-mux.nowake.ai/port-range", "9000-9001")]
        [("07bb300", 80), ("64bbd5a", 9000)]
      channels := [sampleChannel "web" "http" 9000 [("svc-mux.nowake.ai/ports", "http:80->80")],
        sampleChannel "api" "http" 80 [("svc-mux.nowake.ai/external-ports", "http:auto"),
          ("svc-mux.nowake.ai/ports", "http:80->9000")]]
      configmap := none
      order := sampleOrder
      admitted := by decide +kernel
      distinct := by decide +kernel }]

theorem persisted_claims_of_movedRun :
    MuxState.ListenersDistinct (storedClaims (configmapAfterRun sampleConfig none movedRun)) := by
  have hdigest : ∀ input ∈ movedRun, DigestInjectiveOn sampleConfig input.channels := by
    unfold DigestInjectiveOn
    decide +kernel
  exact persisted_claims_exclusive sampleConfig none movedRun hdigest List.Pairwise.nil

end SvcLbMux
