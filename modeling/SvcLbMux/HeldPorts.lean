import SvcLbMux.Established
import SvcLbMux.Library.Growing

namespace SvcLbMux

open Py

variable {cfg : Config}

/-- The declared ports of the channels that hold the port of their claim. -/
def heldPorts (cfg : Config) (channels : List Channel) (st : MuxState) : Set (Channel × ServicePort) :=
  {e | e.1 ∈ channels ∧ e.2 ∈ e.1.ports ∧ ∃ n, st.Held cfg e.1 ⟨e.2, n⟩}

@[simp] theorem mem_heldPorts {channels : List Channel} {st : MuxState} {c : Channel}
    {p : ServicePort} : (c, p) ∈ heldPorts cfg channels st ↔
      c ∈ channels ∧ p ∈ c.ports ∧ ∃ n, st.Held cfg c ⟨p, n⟩ := Iff.rfl

theorem heldPorts_of_perm {channels channels' : List Channel} (h : channels.Perm channels')
    (st : MuxState) : heldPorts cfg channels st = heldPorts cfg channels' st := by
  ext ⟨c, p⟩
  simp only [mem_heldPorts, h.mem_iff]

theorem finite_heldPorts (channels : List Channel) :
    {e : Channel × ServicePort | e.1 ∈ channels ∧ e.2 ∈ e.1.ports}.Finite := by
  refine (List.finite_toSet (channels.flatMap fun c => c.ports.map fun p => (c, p))).subset ?_
  rintro ⟨c, p⟩ ⟨hc, hp⟩
  exact List.mem_flatMap.mpr ⟨c, hc, List.mem_map_of_mem hp⟩

/-- From one state to another no held port is lost, and nothing changes unless one is gained. -/
structure GainsHeld (cfg : Config) (channels : List Channel) (st st' : MuxState) : Prop where
  kept : heldPorts cfg channels st ⊆ heldPorts cfg channels st'
  gained : st' = st ∨ ∃ e ∈ heldPorts cfg channels st', e ∉ heldPorts cfg channels st

theorem gainsHeld_refl {channels : List Channel} (st : MuxState) :
    GainsHeld cfg channels st st := ⟨Set.Subset.refl _, Or.inl rfl⟩

section Turns

variable {input : AdmittedPass} {st st' : MuxState} {c : Channel} {p : ServicePort}

theorem gainsHeld_allocate (hc : c ∈ input.channels) (hp : p ∈ c.ports) (hnamed : p.unnamed = false)
    (hwk : WellKeyed st'.claims) (h : GainsHeld cfg input.channels st st') :
    GainsHeld cfg input.channels st (MuxState.allocate cfg c p st').2 := by
  have hadmitted := input.admitted c hc
  obtain ⟨e, hstate⟩ | ⟨n, -, hstate⟩ | ⟨n, hstale, -, -, hstate⟩ :=
    MuxState.allocate_cases cfg st' c p
  · rwa [hstate]
  · rwa [hstate]
  · -- Another port is claimed for a port that held none.
    have hnone : ∀ m, ¬ st'.Held cfg c ⟨p, m⟩ := by
      intro m hheld
      rw [MuxState.reusablePort_of_held hheld] at hstale
      cases hstale
    have hgrant : (MuxState.allocate cfg c p st').2.Held cfg c ⟨p, n⟩ :=
      MuxState.held_allocate hadmitted hp hwk (by rw [hstate])
    have hkept : heldPorts cfg input.channels st' ⊆
        heldPorts cfg input.channels (MuxState.allocate cfg c p st').2 := by
      rintro ⟨d, q⟩ hheld
      rw [mem_heldPorts] at hheld ⊢
      obtain ⟨hd, hq, m, hheld⟩ := hheld
      refine ⟨hd, hq, m, hheld.after_allocate fun hkey => ?_⟩
      obtain ⟨hchannel, hname, -⟩ := eq_of_claimKey_eq hadmitted hp hkey.symm
      obtain rfl := input.eq_of_key_eq hd hc hchannel
      obtain rfl := eq_of_portName_eq hadmitted.names hp hq hnamed hname.symm
      exact hnone m hheld
    refine ⟨h.kept.trans hkept, Or.inr ⟨(c, p), ⟨hc, hp, n, hgrant⟩, fun hheld => ?_⟩⟩
    obtain ⟨-, -, m, hheld⟩ := mem_heldPorts.mp (h.kept hheld)
    exact hnone m hheld

variable {muxKey : String × String} {maxPorts : Option Int} {s s' : LoopState} {outcome : Outcome}

/-- A turn that leaves the claims of whom it accepts alone, gains held ports or changes nothing. -/
theorem gainsHeld_step (hs : s.Sound) (hc : c ∈ input.channels)
    (h : channelStep cfg muxKey maxPorts s c = .ok (s', outcome))
    (hsame : ∀ served, outcome = .accepted served → s'.muxState = s.muxState)
    (hgains : GainsHeld cfg input.channels st s.muxState) :
    GainsHeld cfg input.channels st s'.muxState := by
  by_cases hnamed : ∀ p ∈ c.ports, p.unnamed = false
  · obtain ⟨-, ⟨rejection, rfl⟩, -, -, hstate⟩ | ⟨resolved, -, rfl, -⟩ := channelStep_cases h
    · rw [hstate]
      split_ifs
      · exact hgains
      · let P := fun st' : MuxState =>
          WellKeyed st'.claims ∧ GainsHeld cfg input.channels st st'
        exact (MuxState.resolve_invariant P (fun st' p hp h' =>
          ⟨MuxState.wellKeyed_allocate h'.1 c p, gainsHeld_allocate hc hp (hnamed p hp) h'.1 h'.2⟩)
          ⟨hs.wellKeyed, hgains⟩).2
    · rwa [hsame resolved rfl]
  · rwa [muxState_channelStep_of_unnamed hnamed h]

theorem recordResolved_of_recorded {resolved : List ResolvedPort}
    (h : ∀ r ∈ resolved, st.claims.get (c.claimKey r.port) =
      some (MuxState.recordedClaim cfg c r)) : MuxState.recordResolved cfg c st resolved = st := by
  induction resolved with
  | nil => rfl
  | cons r rest ih =>
    have hone : st.setClaim (.fromChannelPort c r.port) r.port.port r.muxPort
        (MuxState.recordedMode cfg c r.port) = st := by
      unfold MuxState.setClaim
      exact if_neg (not_not.mpr (h r (by simp)))
    rw [MuxState.recordResolved, List.foldl_cons, hone]
    exact ih fun q hq => h q (List.mem_cons_of_mem _ hq)

theorem muxState_of_recorded {explicitPorts : Dict String PortRequest} {served : List ResolvedPort}
    (hs : s.Sound) (hc : c ∈ input.channels) (hserved : ServedAt cfg c explicitPorts served)
    (hsecured : Secured cfg c explicitPorts served s)
    (hrecorded : ∀ r ∈ served, s.muxState.claims.get (c.claimKey r.port) =
      some (MuxState.recordedClaim cfg c r))
    (h : channelStep cfg muxKey maxPorts s c = .ok (s', .accepted served)) :
    s'.muxState = s.muxState := by
  obtain ⟨-, -, -, -, hstate⟩ := accepted_spec (input.admitted c hc) hs.wellKeyed hs.ranges h
  rw [hstate, processChannelPorts_of_secured hserved hsecured]
  exact recordResolved_of_recorded hrecorded

end Turns

section Passes

variable {input next : AdmittedPass} {r : PassResult} {start start' : PassStart}

theorem gainsHeld_of_pass (hpass : muxPass cfg input.toPassInput = .ok r)
    (hstart : passStart cfg input.toPassInput = .ok start)
    (hestablished : ∀ c served, (c, Outcome.accepted served) ∈ r.reports →
      ∃ explicitPorts, Established cfg input.toPassInput c explicitPorts served)
    (hrecorded : ∀ c served, (c, Outcome.accepted served) ∈ r.reports → ∀ p ∈ served,
      start.loop.muxState.claims.get (c.claimKey p.port) =
        some (MuxState.recordedClaim cfg c p)) :
    GainsHeld cfg input.channels start.loop.muxState r.final.muxState := by
  obtain ⟨hrun, -⟩ := muxPass_from_start hpass hstart
  obtain ⟨e, he⟩ := started_of_passStart hstart
  -- As far as the loop comes, the accepted channels are secured and have their recorded claims.
  let P := fun s : LoopState => s.Sound ∧
    GainsHeld cfg input.channels start.loop.muxState s.muxState ∧
    ∀ c served, (c, Outcome.accepted served) ∈ r.reports →
      (∀ explicitPorts, Established cfg input.toPassInput c explicitPorts served →
        Secured cfg c explicitPorts served s) ∧
      ∀ p ∈ served, s.muxState.claims.get (c.claimKey p.port) =
        some (MuxState.recordedClaim cfg c p)
  have hP : P r.final := by
    refine Loop.run_report_invariant P ⟨he.sound, gainsHeld_refl _, fun c served hc =>
      ⟨fun explicitPorts h => secured_at_start h he, hrecorded c served hc⟩⟩ ?_ hrun
    rintro s d s' outcome hreport ⟨hs, hgains, haccepted⟩ hstep
    have hd := input.mem_channels_of_mem_reports hpass hreport
    have hsame : ∀ served, outcome = .accepted served → s'.muxState = s.muxState := by
      rintro served rfl
      obtain ⟨explicitPorts, h⟩ := hestablished d served hreport
      obtain ⟨hsecured, hrec⟩ := haccepted d served hreport
      exact muxState_of_recorded hs hd h.servedAt (hsecured explicitPorts h) hrec hstep
    refine ⟨sound_channelStep hs hstep, gainsHeld_step hs hd hstep hsame hgains,
      fun c served hc => ?_⟩
    obtain ⟨hsecured, hrec⟩ := haccepted c served hc
    refine ⟨fun explicitPorts h => secured_step hs h.servedAt (hsecured explicitPorts h) h.mem hd hstep,
      fun p hp => ?_⟩
    rcases eq_or_ne d c with rfl | hne
    · obtain rfl := input.eq_of_mem_reports hpass hreport hc
      rw [hsame served rfl]
      exact hrec p hp
    · obtain ⟨explicitPorts, h⟩ := hestablished c served hc
      rw [get_claims_channelStep_ne (fun _ _ =>
        input.claimKey_ne h.mem hd hne (mem_ports_of_mem h.servedAt hp)) hstep]
      exact hrec p hp
  exact hP.2.1

theorem heldPorts_congr {channels : List Channel} {st st' : MuxState}
    (hclaims : st'.claims.Same st.claims) (hranges : st'.ranges = st.ranges)
    (hreserved : st'.reservedPorts = st.reservedPorts)
    (howners : ∀ key, st'.reservedPortOwners.get key = st.reservedPortOwners.get key) :
    heldPorts cfg channels st' = heldPorts cfg channels st := by
  have hheld : ∀ {st st' : MuxState}, st'.claims.Same st.claims → st'.ranges = st.ranges →
      st'.reservedPorts = st.reservedPorts →
      (∀ key, st'.reservedPortOwners.get key = st.reservedPortOwners.get key) →
      ∀ {c : Channel} {r : ResolvedPort}, st.Held cfg c r → st'.Held cfg c r := by
    intro st st' hclaims hranges hreserved howners c r h
    obtain ⟨claim, hget, hl⟩ := h.claimed
    refine ⟨⟨⟨claim, (hclaims _).trans hget, hl⟩, fun key claim' hget' hl' => ?_⟩, hranges ▸ h.inRange,
      hreserved ▸ h.unreserved, fun o ho => h.undisputed o ((howners _).symm.trans ho)⟩
    exact h.alone key claim' ((hclaims key).symm.trans hget') hl'
  ext ⟨c, p⟩
  refine and_congr_right fun _ => and_congr_right fun _ => exists_congr fun n => ⟨?_, ?_⟩
  · exact hheld (fun key => (hclaims key).symm) hranges.symm hreserved.symm
      fun key => (howners key).symm
  · exact hheld hclaims hranges hreserved howners

/-- A pass starts with the claims that the one before it ended with, and with nothing to write. -/
theorem claims_next (hready : Ready cfg input) (hpass : muxPass cfg input.toPassInput = .ok r)
    (hfollows : Follows cfg input.toPassInput r next.toPassInput)
    (hstart' : passStart cfg next.toPassInput = .ok start') :
    start'.loop.muxState.claims.Same r.final.muxState.claims ∧
      start'.loop.muxState.changed = false := by
  obtain ⟨e', he'⟩ := started_of_passStart hstart'
  obtain ⟨state, hstate, hneeds, hclaims, hactive⟩ := saved_state hpass hready.load
  have hload : (muxStore cfg next.mux).load next.configmap = .ok state := by
    rw [hfollows.store, hfollows.configmap]
    exact hstate
  obtain ⟨hloaded, -, -⟩ := state_of_load he' ⟨state, hload⟩
  have hsame : e'.state = state := Except.ok.inj (hloaded.symm.trans hload)
  have hactive' : r.final.muxState.ClaimsActive (sortChannels next.channels) := by
    rw [claimsActive_sortChannels]
    intro key claim hget
    have hkey := (mem_activeClaimKeys_channelAfter input hpass key).mpr (hactive key claim hget)
    simp only [mem_activeClaimKeys, hfollows.channels.mem_iff] at hkey ⊢
    exact hkey
  rw [he'.loop]
  change (e'.muxState next.toPassInput).claims.Same r.final.muxState.claims ∧
    (e'.muxState next.toPassInput).changed = false
  rw [StartEvidence.muxState, hsame]
  exact reload_of_claims hneeds hclaims hactive'

theorem configmap_next {r' : PassResult} (hready : Ready cfg input)
    (hpass : muxPass cfg input.toPassInput = .ok r)
    (hfollows : Follows cfg input.toPassInput r next.toPassInput)
    (hpass' : muxPass cfg next.toPassInput = .ok r')
    (hstart' : passStart cfg next.toPassInput = .ok start')
    (hsame : r'.final.muxState = start'.loop.muxState) : r'.configmap = next.configmap := by
  obtain ⟨start, hstart, -, -, hconfigmap⟩ := muxPass_eq_ok hpass
  obtain ⟨-, hconfigmap'⟩ := muxPass_from_start hpass' hstart'
  obtain ⟨e, he⟩ := started_of_passStart hstart
  -- The pass before has written a ConfigMap when it found none.
  have hsome : next.configmap.isNone = false := by
    rw [hfollows.configmap, hconfigmap, (state_of_load he hready.load).2.2, savedConfigmap]
    split_ifs with hsave
    · rfl
    · exact (Bool.or_eq_false_iff.mp (Bool.eq_false_iff.mpr hsave)).2
  rw [hconfigmap', hsame]
  unfold savedConfigmap
  rw [(claims_next hready hpass hfollows hstart').2, hsome]
  cases start'.store <;> rfl

/-- A pass starts with the held ports that the one before it ended with, when the mux ports and the
channels did not change. -/
theorem heldPorts_next (hready : Ready cfg input) (hpass : muxPass cfg input.toPassInput = .ok r)
    (hfollows : Follows cfg input.toPassInput r next.toPassInput)
    (hstart : passStart cfg input.toPassInput = .ok start)
    (hstart' : passStart cfg next.toPassInput = .ok start')
    (hchannels : sortChannels next.channels = sortChannels input.channels)
    (hports : oldMuxPorts input.mux.ports = .ok r.muxPorts) (channels : List Channel) :
    heldPorts cfg channels start'.loop.muxState = heldPorts cfg channels r.final.muxState := by
  obtain ⟨e, he⟩ := started_of_passStart hstart
  obtain ⟨e', he'⟩ := started_of_passStart hstart'
  obtain ⟨hrun, -⟩ := muxPass_from_start hpass hstart
  have hfixed : r.final.muxState.fixed = start.loop.muxState.fixed :=
    Loop.run_invariant (fun s => s.muxState.fixed = start.loop.muxState.fixed) rfl
      (fun _ _ _ _ _ hs hstep => (fixed_channelStep hstep).trans hs) hrun
  refine heldPorts_congr (claims_next hready hpass hfollows hstart').1 ?_ ?_ fun key => ?_
  · rw [MuxState.ranges_of_fixed hfixed, he.loop, he'.loop]
    change e'.ranges = e.ranges
    rw [(state_of_load he hready.load).2.1,
      (state_of_load he' (ready_next hready hpass hfollows).load).2.1, hfollows.ranges]
  · rw [MuxState.reservedPorts_of_fixed hfixed, he.loop, he'.loop]
    change e'.reservedPorts = e.reservedPorts
    have hreserved := he'.reserved
    rw [hchannels, he.reserved] at hreserved
    exact (Except.ok.inj hreserved).symm
  · rw [MuxState.reservedPortOwners_of_fixed hfixed, he.loop, he'.loop]
    change e'.recovered.get key = e.recovered.get key
    have hold : r.muxPorts = e.oldPorts := Except.ok.inj (hports.symm.trans he.oldPorts)
    have hold' : r.muxPorts = e'.oldPorts := Except.ok.inj (hfollows.muxPorts.symm.trans he'.oldPorts)
    have hrecovered := he'.recovered
    rw [hchannels] at hrecovered
    refine get_collectExistingPortOwners_congr hrecovered he.recovered (fun m => ?_)
      (fun m hm m' hm' => ?_) key
    · rw [next.order.mem_toList, input.order.mem_toList, ← hold, ← hold']
    · rw [next.order.mem_toList, ← hold'] at hm hm'
      exact eq_of_key_eq_of_muxPorts hpass hm hm'

end Passes

end SvcLbMux
