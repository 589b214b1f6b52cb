import SvcLbMux.NextPass

namespace SvcLbMux

open Py

variable {cfg : Config}

/-! ## The flag `changed` -/

def MuxState.Flagged (before after : MuxState) : Prop := after = before ∨ after.changed = true

namespace MuxState

variable {st st' : MuxState}

theorem flagged_setClaim (h : st.Flagged st') (ref : PortAllocationRef) (channelPort muxPort : Int)
    (mode : String) : st.Flagged (st'.setClaim ref channelPort muxPort mode) := by
  unfold setClaim
  dsimp only
  split_ifs
  · exact Or.inr rfl
  · exact h

theorem flagged_allocate (h : st.Flagged st') (c : Channel) (p : ServicePort) :
    st.Flagged (allocate cfg c p st').2 := by
  obtain ⟨e, ha⟩ | ⟨n, -, ha⟩ | ⟨n, -, -, -, ha⟩ := allocate_cases cfg st' c p
  · rwa [ha]
  · rwa [ha]
  · rw [ha]
    exact flagged_setClaim h _ _ _ _

/-- Every claim is for a port that is still declared. -/
def ClaimsActive (channels : List Channel) (st : MuxState) : Prop :=
  ∀ key claim, st.claims.get key = some claim → key ∈ activeClaimKeys channels

theorem claimsActive_setClaim {channels : List Channel} (h : st.ClaimsActive channels)
    {c : Channel} (hc : c ∈ channels) {p : ServicePort} (hp : p ∈ c.ports)
    (hnamed : p.unnamed = false) (muxPort : Int) (mode : String) :
    (st.setClaim (.fromChannelPort c p) p.port muxPort mode).ClaimsActive channels := by
  intro key claim hget
  rw [get_claims_setClaim] at hget
  split_ifs at hget with hkey
  · rw [← hkey]
    exact mem_activeClaimKeys.mpr ⟨c, hc, p, hp, hnamed, rfl⟩
  · exact h key claim hget

theorem claimsActive_allocate {channels : List Channel} (h : st.ClaimsActive channels)
    {c : Channel} (hc : c ∈ channels) {p : ServicePort} (hp : p ∈ c.ports)
    (hnamed : p.unnamed = false) : (allocate cfg c p st).2.ClaimsActive channels := by
  obtain ⟨e, ha⟩ | ⟨n, -, ha⟩ | ⟨n, -, -, -, ha⟩ := allocate_cases cfg st c p
  · rwa [ha]
  · rwa [ha]
  · rw [ha]
    exact claimsActive_setClaim h hc hp hnamed _ _

end MuxState

/-! ## The loop -/

section Loop

variable {muxKey : String × String} {maxPorts : Option Int} {s s' : LoopState} {c : Channel}
  {outcome : Outcome}

theorem flagged_channelStep {st : MuxState} (hs : st.Flagged s.muxState)
    (h : channelStep cfg muxKey maxPorts s c = .ok (s', outcome)) : st.Flagged s'.muxState :=
  channelStep_invariant (fun st' => st.Flagged st')
    (fun _ p _ hst => MuxState.flagged_allocate hst c p)
    (fun _ _ _ _ _ hst => MuxState.flagged_setClaim hst _ _ _ _) hs h

theorem muxState_channelStep_of_unnamed (hunnamed : ¬ ∀ p ∈ c.ports, p.unnamed = false)
    (h : channelStep cfg muxKey maxPorts s c = .ok (s', outcome)) : s'.muxState = s.muxState := by
  have hclaims : ∃ e, channelPortClaims cfg c = .error e := by
    cases hclaims : channelPortClaims cfg c with
    | error e => exact ⟨e, rfl⟩
    | ok explicitPorts => exact absurd (channelPortClaims_eq_ok hclaims).2 hunnamed
  obtain ⟨e, herr⟩ := hclaims
  have hprocess : processChannelPorts cfg c s.muxState = (.error e, s.muxState) := by
    rw [processChannelPorts, resolveChannelPorts, herr]
  obtain ⟨-, -, -, -, hstate⟩ | ⟨resolved, -, -, hresolve, -⟩ := channelStep_cases h
  · rw [hstate, hprocess, ite_self]
  · rw [hprocess] at hresolve
    cases hresolve

theorem claimsActive_channelStep {channels : List Channel}
    (hs : s.muxState.ClaimsActive channels) (hc : c ∈ channels)
    (h : channelStep cfg muxKey maxPorts s c = .ok (s', outcome)) :
    s'.muxState.ClaimsActive channels := by
  by_cases hnamed : ∀ p ∈ c.ports, p.unnamed = false
  · exact channelStep_invariant (MuxState.ClaimsActive channels)
      (fun _ p hp hst => MuxState.claimsActive_allocate hst hc hp (hnamed p hp))
      (fun _ p hp _ _ hst => MuxState.claimsActive_setClaim hst hc hp (hnamed p hp) _ _) hs h
  · rw [muxState_channelStep_of_unnamed hnamed h]
    exact hs

end Loop

/-! ## The state after the pass -/

section Reload

variable {muxKey : String × String} {ranges : List (Int × Int)} {state : Option StateDoc}
  {channels : List Channel} {reservedPorts : Finset PortKey} {recovered : Dict PortKey String}

theorem changed_init_eq_false_iff :
    (MuxState.init muxKey ranges state channels reservedPorts recovered).changed = false ↔
      stateNeedsClaimWrite state = false ∧
        ∀ key claim, (claimsByKey (stateClaims state)).get key = some claim →
          key ∈ activeClaimKeys channels := by
  have hany : ((claimsByKey (stateClaims state)).keys.any fun key =>
      key ∉ activeClaimKeys channels) = false ↔
      ∀ key claim, (claimsByKey (stateClaims state)).get key = some claim →
        key ∈ activeClaimKeys channels := by
    rw [List.any_eq_false]
    constructor
    · intro h key claim hget
      have hkey := h key ((Dict.mem_keys_iff _ _).mpr ⟨claim, hget⟩)
      simpa using hkey
    · intro h key hkey
      obtain ⟨claim, hget⟩ := (Dict.mem_keys_iff _ _).mp hkey
      simpa using h key claim hget
  rw [← hany, ← Bool.or_eq_false_iff]
  rfl

theorem claimsActive_init :
    (MuxState.init muxKey ranges state channels reservedPorts recovered).ClaimsActive channels :=
  fun _ _ hget => (MuxState.exists_mem_of_get_claims_init hget).1

theorem claimsActive_sortChannels {st : MuxState} :
    st.ClaimsActive (sortChannels channels) ↔ st.ClaimsActive channels := by
  simp only [MuxState.ClaimsActive, mem_activeClaimKeys, mem_sortChannels]

/-- A state document with the claims of a mux is loaded into these claims, and there is nothing to
write. -/
theorem reload_of_claims {st : MuxState} (hneeds : stateNeedsClaimWrite state = false)
    (hclaims : ∀ key, (claimsByKey (stateClaims state)).get key = st.claims.get key)
    (hactive : st.ClaimsActive channels) :
    (MuxState.init muxKey ranges state channels reservedPorts recovered).claims.Same st.claims ∧
      (MuxState.init muxKey ranges state channels reservedPorts recovered).changed = false := by
  refine ⟨fun key => ?_, changed_init_eq_false_iff.mpr ⟨hneeds, fun key claim hget => ?_⟩⟩
  · rw [MuxState.get_claims_init, hclaims]
    split_ifs with hkey
    · rfl
    · cases hget : st.claims.get key with
      | none => rfl
      | some claim => exact absurd (hactive key claim hget) hkey
  · rw [hclaims] at hget
    exact hactive key claim hget

end Reload

/-- The ConfigMap after a pass can be loaded, and lists the claims that the pass ended with. -/
theorem saved_state {input : AdmittedPass} {r : PassResult}
    (hpass : muxPass cfg input.toPassInput = .ok r)
    (hload : ∃ state, (muxStore cfg input.mux).load input.configmap = .ok state) :
    ∃ state, (muxStore cfg input.mux).load r.configmap = .ok state ∧
      stateNeedsClaimWrite state = false ∧
      (∀ key, (claimsByKey (stateClaims state)).get key = r.final.muxState.claims.get key) ∧
      r.final.muxState.ClaimsActive input.channels := by
  obtain ⟨start, hstart, hrun, -, hconfigmap⟩ := muxPass_eq_ok hpass
  obtain ⟨e, he⟩ := started_of_passStart hstart
  obtain ⟨hloaded, -, hstore⟩ := state_of_load he hload
  obtain ⟨hsound, hflagged, hactive⟩ := Loop.run_invariant (fun s => s.Sound ∧
      start.loop.muxState.Flagged s.muxState ∧ s.muxState.ClaimsActive input.channels)
    ⟨he.sound, Or.inl rfl, by rw [he.loop]; exact claimsActive_sortChannels.mp claimsActive_init⟩
    (fun _ _ _ _ hc h hstep => ⟨sound_channelStep h.1 hstep, flagged_channelStep h.2.1 hstep,
      claimsActive_channelStep h.2.2 (mem_sortChannels.mp hc) hstep⟩) hrun
  rw [hstore, savedConfigmap] at hconfigmap
  split_ifs at hconfigmap with hsave
  · -- Saved: what is written is what is loaded.
    rw [hconfigmap]
    exact ⟨_, ConfigMapAllocationStore.load_save _ _, rfl,
      MuxState.claimsByKey_toState hsound.wellKeyed hsound.normalized, hactive⟩
  · -- Not saved: nothing has changed since the state was loaded.
    obtain ⟨hunchanged, -⟩ := Bool.or_eq_false_iff.mp (Bool.eq_false_iff.mpr hsave)
    have hsame : r.final.muxState = e.muxState input.toPassInput := by
      rcases hflagged with h | h
      · rw [h, he.loop]
      · rw [hunchanged] at h
        cases h
    rw [hsame] at hunchanged
    obtain ⟨hneeds, hdeclared⟩ := changed_init_eq_false_iff.mp hunchanged
    rw [hconfigmap]
    refine ⟨e.state, hloaded, hneeds, fun key => ?_, hactive⟩
    rw [hsame, StartEvidence.muxState, MuxState.get_claims_init]
    split_ifs with hkey
    · rfl
    · cases hget : (claimsByKey (stateClaims e.state)).get key with
      | none => rfl
      | some claim => exact absurd (hdeclared key claim hget) hkey

/-- The ConfigMap after a pass is loaded without complaint, and a state built from it over the same
channels has the claims that the pass ended with and nothing to write. -/
theorem state_configmap_holds_claims (cfg : Config) (input : AdmittedPass) (r : PassResult)
    (hpass : muxPass cfg input.toPassInput = .ok r)
    (hload : ∃ state, (muxStore cfg input.mux).load input.configmap = .ok state) :
    ∃ state, (muxStore cfg input.mux).load r.configmap = .ok state ∧
      ∀ channels, (∀ key, key ∈ activeClaimKeys channels ↔ key ∈ activeClaimKeys input.channels) →
        ∀ ranges reservedPorts recovered,
          (MuxState.init (input.mux.namespace_, input.mux.name) ranges state channels reservedPorts
            recovered).claims.Same r.final.muxState.claims ∧
          (MuxState.init (input.mux.namespace_, input.mux.name) ranges state channels reservedPorts
            recovered).changed = false := by
  obtain ⟨state, hstate, hneeds, hclaims, hactive⟩ := saved_state hpass hload
  refine ⟨state, hstate, fun channels hkeys _ _ _ => ?_⟩
  exact reload_of_claims hneeds hclaims fun key claim hget =>
    (hkeys key).mpr (hactive key claim hget)

theorem mem_activeClaimKeys_channelAfter (input : AdmittedPass) {r : PassResult}
    (hpass : muxPass cfg input.toPassInput = .ok r) (key : String) :
    key ∈ activeClaimKeys (r.reports.map (channelAfter cfg)) ↔
      key ∈ activeClaimKeys input.channels := by
  obtain ⟨start, -, hrun, -⟩ := muxPass_eq_ok hpass
  have hreports : r.reports.map Prod.fst = sortChannels input.channels := Loop.map_fst_run hrun
  have hclaimKey : ∀ (report : Channel × Outcome) (p : ServicePort),
      (channelAfter cfg report).claimKey p = report.1.claimKey p :=
    fun report => claimKey_of_key_eq (key_channelAfter report)
  have hmem : ∀ c, c ∈ input.channels ↔ ∃ report ∈ r.reports, report.1 = c := by
    intro c
    rw [← mem_sortChannels, ← hreports, List.mem_map]
  simp only [mem_activeClaimKeys, List.mem_map, hmem]
  constructor
  · rintro ⟨c, ⟨report, hreport, rfl⟩, p, hp, hnamed, hkey⟩
    rw [ports_channelAfter] at hp
    exact ⟨_, ⟨report, hreport, rfl⟩, p, hp, hnamed, hclaimKey report p ▸ hkey⟩
  · rintro ⟨c, ⟨report, hreport, rfl⟩, p, hp, hnamed, hkey⟩
    have hports : (channelAfter cfg report).ports = report.1.ports := ports_channelAfter report
    exact ⟨_, ⟨report, hreport, rfl⟩, p, hports ▸ hp, hnamed, (hclaimKey report p).trans hkey⟩

/-- After the pass in which `web` keeps its claim, a restarted controller finds just that claim. -/
theorem state_configmap_of_contestedPass :
    ∃ r, muxPass sampleConfig contestedPass.toPassInput = .ok r ∧
      ∃ state, (muxStore sampleConfig contestedPass.mux).load r.configmap = .ok state ∧
        (MuxState.init ("default", "mux") [] state (r.reports.map (channelAfter sampleConfig)) ∅
          Dict.empty).claims.Same r.final.muxState.claims := by
  obtain ⟨r, hpass⟩ := contestedPass.muxPass_ok_iff.mpr
    (by decide +kernel : Readable sampleConfig contestedPass.toPassInput)
  obtain ⟨state, hstate, hall⟩ := state_configmap_holds_claims sampleConfig contestedPass r hpass
    ⟨_, rfl⟩
  exact ⟨r, hpass, state, hstate,
    (hall _ (mem_activeClaimKeys_channelAfter contestedPass hpass) [] ∅ Dict.empty).1⟩

end SvcLbMux
