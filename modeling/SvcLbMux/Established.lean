import SvcLbMux.Rejections
import SvcLbMux.Restart

namespace SvcLbMux

open Py

variable {cfg : Config}

/-- The digest does not collide on the declared ports, the store works, and the stored claims are on
distinct listeners. -/
structure Ready (cfg : Config) (input : AdmittedPass) : Prop where
  digest : DigestInjectiveOn cfg input.channels
  load : ∃ state, (muxStore cfg input.mux).load input.configmap = .ok state
  distinct : MuxState.ListenersDistinct (storedClaims input.configmap)

/-- The channel is steady, nobody asks for its allocated ports by their number, and it fits the limit
as long as no other channel does. -/
structure Established (cfg : Config) (input : PassInput) (c : Channel)
    (explicitPorts : Dict String PortRequest) (served : List ResolvedPort) : Prop
    extends Steady cfg input c explicitPorts served where
  unrequested : Unrequested cfg input.channels explicitPorts served
  room : wouldExceedMuxPortLimit ∅ c (muxPortLimit cfg input.mux).1 = false

theorem wouldExceed_mono {ports ports' : Finset MuxPort} (hsub : ports ⊆ ports') {c : Channel}
    {maxPorts : Option Int} (h : wouldExceedMuxPortLimit ports' c maxPorts = false) :
    wouldExceedMuxPortLimit ports c maxPorts = false := by
  have hcard := Finset.card_le_card hsub
  unfold wouldExceedMuxPortLimit at h ⊢
  cases maxPorts with
  | none => rfl
  | some n =>
    simp only [decide_eq_false_iff_not, not_lt] at h ⊢
    omega

section Next

variable {input next : AdmittedPass} {r : PassResult} {start : PassStart} {c : Channel}
  {explicitPorts : Dict String PortRequest} {served : List ResolvedPort}

theorem digestInjectiveOn_next (hdigest : DigestInjectiveOn cfg input.channels)
    (hpass : muxPass cfg input.toPassInput = .ok r)
    (hfollows : Follows cfg input.toPassInput r next.toPassInput) :
    DigestInjectiveOn cfg next.channels := by
  intro c hc p hp d hd q hq hname
  obtain ⟨⟨c, outcome⟩, hreport, rfl⟩ := List.mem_map.mp (hfollows.channels.subset hc)
  obtain ⟨⟨d, outcome'⟩, hreport', rfl⟩ := List.mem_map.mp (hfollows.channels.subset hd)
  rw [ports_channelAfter] at hp hq
  rw [muxName_of_key_eq (key_channelAfter _), muxName_of_key_eq (key_channelAfter _)] at hname
  rw [key_channelAfter, key_channelAfter]
  exact hdigest c (input.mem_channels_of_mem_reports hpass hreport) p hp d
    (input.mem_channels_of_mem_reports hpass hreport') q hq hname

theorem ready_next (hready : Ready cfg input) (hpass : muxPass cfg input.toPassInput = .ok r)
    (hfollows : Follows cfg input.toPassInput r next.toPassInput) : Ready cfg next := by
  refine ⟨digestInjectiveOn_next hready.digest hpass hfollows, ?_, ?_⟩
  · obtain ⟨state, hstate, -⟩ := saved_state hpass hready.load
    rw [hfollows.store, hfollows.configmap]
    exact ⟨state, hstate⟩
  · rw [hfollows.configmap]
    exact listenersDistinct_muxPass input hready.digest hpass hready.distinct

theorem get_storedClaims_next (hready : Ready cfg input)
    (hpass : muxPass cfg input.toPassInput = .ok r)
    (hfollows : Follows cfg input.toPassInput r next.toPassInput) (key : String) :
    (claimsByKey (storedClaims next.configmap)).get key = r.final.muxState.claims.get key := by
  obtain ⟨state, hstate, -, hclaims, -⟩ := saved_state hpass hready.load
  rw [hfollows.configmap, ← stateClaims_of_load hstate, hclaims]

theorem established_of_accepted (hready : Ready cfg input)
    (hpass : muxPass cfg input.toPassInput = .ok r)
    (hfollows : Follows cfg input.toPassInput r next.toPassInput)
    (hreport : (c, Outcome.accepted served) ∈ r.reports) :
    ∃ explicitPorts, Established cfg next.toPassInput (channelAfter cfg (c, .accepted served))
      explicitPorts served := by
  have hready' := ready_next hready hpass hfollows
  have hkey : (channelAfter cfg (c, .accepted served)).key = c.key := key_channelAfter _
  obtain ⟨start, hstart, -⟩ := muxPass_eq_ok hpass
  obtain ⟨explicitPorts, -, hserved, -⟩ := turn_of_accepted hpass hstart hreport
  have hserved' : ServedAt cfg (channelAfter cfg (c, .accepted served)) explicitPorts served :=
    ⟨(channelPortClaims_channelAfter _).trans hserved.claims,
      (ports_channelAfter _).symm ▸ hserved.ports, hserved.static⟩
  refine ⟨explicitPorts, ⟨?_, hserved', ?_, ?_, ?_, ?_⟩, ?_, ?_⟩
  · exact hfollows.channels.mem_iff.mpr (List.mem_map_of_mem hreport)
  · refine persisted_of_listenersDistinct hready'.load hready'.distinct fun p hp => ?_
    refine ⟨MuxState.recordedClaim cfg c p, ?_, MuxState.listener_recordedClaim p⟩
    rw [get_storedClaims_next hready hpass hfollows, claimKey_of_key_eq hkey]
    exact accepted_claims hpass hreport hp
  · intro p hp
    rw [hfollows.ranges]
    exact inRange_of_allocated hpass hserved hreport hp
  · intro oldPorts hold m hm p hp hmuxPort
    obtain rfl := Except.ok.inj (hfollows.muxPorts.symm.trans hold)
    rw [muxName_of_key_eq hkey]
    exact muxPorts_next hpass (ports_ne_empty_of_accepted hpass hreport hp)
      (owned_of_reports hpass hreport hp) m hm hmuxPort
  · unfold channelAfter
    dsimp only
    split_ifs with hchanged
    · simp [Channel.patchPorts]
    · exact not_not.mp hchanged
  · exact unrequested_next hpass hfollows (unrequested_of_accepted hpass hserved hreport)
  · obtain ⟨s, s', -, hstep⟩ := input.exists_step hpass hreport
    have hfits : wouldExceedMuxPortLimit ∅ c (muxPortLimit cfg input.mux).1 = false :=
      wouldExceed_mono (Finset.empty_subset s.ports) (acceptedTurn_of_step hstep).fits
    rw [hfollows.limit]
    unfold wouldExceedMuxPortLimit channelDeclaredPortCount at hfits ⊢
    rwa [ports_channelAfter]

theorem channelAfter_of_steady (hsteady : Steady cfg input.toPassInput c explicitPorts served) :
    channelAfter cfg (c, .accepted served) = c :=
  if_neg (not_not.mpr hsteady.recorded)

theorem secured_at_start (h : Established cfg input.toPassInput c explicitPorts served)
    {e : StartEvidence} (he : Started cfg input.toPassInput start e) :
    Secured cfg c explicitPorts served start.loop :=
  secured_of_steady h.toSteady h.unrequested he

theorem ports_subset_final (hpass : muxPass cfg input.toPassInput = .ok r) {s : LoopState}
    (hmeets : PassMeets cfg input.toPassInput c s) : s.ports ⊆ r.final.ports := by
  obtain ⟨start, hstart, hrun, -⟩ := muxPass_eq_ok hpass
  obtain ⟨before, after, log, hsplit, hbefore⟩ := turn_of_meets hstart hmeets
  rw [hsplit] at hrun
  obtain ⟨s', log₁, log₂, h₁, h₂, -⟩ := Loop.run_append_eq_ok.mp hrun
  rw [hbefore, Except.ok.injEq, Prod.mk.injEq] at h₁
  obtain ⟨rfl, -⟩ := h₁
  refine Loop.run_invariant (fun u => s.ports ⊆ u.ports) (Finset.Subset.refl _) ?_ h₂
  rintro u d u' outcome - hu hstep
  obtain ⟨-, -, hports, -⟩ | ⟨resolved, -, -, -, -, hports, -⟩ := channelStep_cases hstep
  · rwa [hports]
  · rw [hports]
    exact hu.trans Finset.subset_union_left

theorem secured_at_turn (h : Established cfg input.toPassInput c explicitPorts served)
    {d : Channel} {s : LoopState} (hmeets : PassMeets cfg input.toPassInput d s) :
    Secured cfg c explicitPorts served s := by
  obtain ⟨start, hstart, before, after, log, hsplit, hrun⟩ := hmeets
  obtain ⟨e, he⟩ := started_of_passStart hstart
  exact secured_of_run he h.servedAt h.mem (secured_at_start h he)
    (hsplit ▸ List.subset_append_left before (d :: after)) hrun

/-- An established channel stays established, also when the limit turns it away. -/
theorem established_next (hready : Ready cfg input) (hpass : muxPass cfg input.toPassInput = .ok r)
    (hfollows : Follows cfg input.toPassInput r next.toPassInput)
    (h : Established cfg input.toPassInput c explicitPorts served) :
    Established cfg next.toPassInput c explicitPorts served := by
  obtain ⟨s, outcome, hmeets, hreport⟩ := input.exists_meets hpass h.mem
  obtain ⟨s', hstep⟩ := input.step_of_meets hpass hreport hmeets
  have hsecured := secured_at_turn h hmeets
  cases hfits : wouldExceedMuxPortLimit s.ports c (muxPortLimit cfg input.mux).1 with
  | false =>
    obtain rfl := accepted_of_secured h.servedAt hsecured hfits hstep
    obtain ⟨explicitPorts', hnext⟩ := established_of_accepted hready hpass hfollows hreport
    rw [channelAfter_of_steady h.toSteady] at hnext
    obtain rfl := Except.ok.inj (h.servedAt.claims.symm.trans hnext.servedAt.claims)
    exact hnext
  | true =>
    obtain ⟨start, hstart, hrun, -⟩ := muxPass_eq_ok hpass
    obtain ⟨e, he⟩ := started_of_passStart hstart
    have hfinal := secured_of_run he h.servedAt h.mem (secured_at_start h he)
      (List.Subset.refl _) hrun
    have hsound : r.final.Sound :=
      Loop.run_invariant LoopState.Sound he.sound (fun _ _ _ _ _ => sound_channelStep) hrun
    have hne : r.final.ports ≠ ∅ := by
      intro hempty
      have hports : s.ports = ∅ :=
        Finset.subset_empty.mp (hempty ▸ ports_subset_final hpass hmeets)
      rw [hports, h.room] at hfits
      cases hfits
    obtain ⟨-, ⟨rejection, rfl⟩, -⟩ | ⟨-, hstays, -⟩ := channelStep_cases hstep
    · refine ⟨⟨?_, h.servedAt, ?_, ?_, ?_, h.recorded⟩, unrequested_next hpass hfollows h.unrequested,
        ?_⟩
      · exact hfollows.channels.mem_iff.mpr (List.mem_map.mpr ⟨_, hreport, rfl⟩)
      · exact persisted_next hpass hstart hfollows h.persisted hfinal hsound
      · rw [hfollows.ranges]
        exact h.inRange
      · intro oldPorts hold m hm p hp
        obtain rfl := Except.ok.inj (hfollows.muxPorts.symm.trans hold)
        exact muxPorts_next hpass hne (hfinal.owned p hp) m hm
      · rw [hfollows.limit]
        exact h.room
    · exact absurd (Or.inl hfits) hstays

theorem served_eq_of_established (hpass : muxPass cfg input.toPassInput = .ok r)
    (h : Established cfg input.toPassInput c explicitPorts served) {resolved : List ResolvedPort}
    (hreport : (c, Outcome.accepted resolved) ∈ r.reports) : resolved = served := by
  obtain ⟨s, s', hmeets, hstep⟩ := input.exists_step hpass hreport
  injection accepted_of_secured h.servedAt (secured_at_turn h hmeets)
    (acceptedTurn_of_step hstep).fits hstep

end Next

/-! ## The choice that the limit makes -/

/-- The ports that a report says a channel was accepted at. -/
def Outcome.acceptedPorts : Outcome → Option (List ResolvedPort)
  | .accepted resolved => some resolved
  | .rejected _ => none

theorem mem_map_acceptedPorts {reports : List (Channel × Outcome)} {c : Channel}
    {served : List ResolvedPort} :
    (c, some served) ∈ reports.map (fun report => (report.1, report.2.acceptedPorts)) ↔
      (c, Outcome.accepted served) ∈ reports := by
  refine ⟨fun h => ?_, fun h => List.mem_map.mpr ⟨_, h, rfl⟩⟩
  obtain ⟨⟨d, outcome⟩, hreport, heq⟩ := List.mem_map.mp h
  cases outcome with
  | rejected rejection => simp [Outcome.acceptedPorts] at heq
  | accepted served' =>
    simp only [Outcome.acceptedPorts, Prod.mk.injEq, Option.some.injEq] at heq
    obtain ⟨rfl, rfl⟩ := heq
    exact hreport

/-- Channels that have ports assigned take their place as long as they fit; the others get nothing. -/
def greedyStep (cfg : Config) (maxPorts : Option Int)
    (assigned : Channel → Option (List ResolvedPort)) (ports : Finset MuxPort) (c : Channel) :
    Except PyError (Finset MuxPort × Option (List ResolvedPort)) :=
  match assigned c with
  | none => .ok (ports, none)
  | some served =>
    if wouldExceedMuxPortLimit ports c maxPorts then .ok (ports, none)
    else .ok (ports ∪ muxPortsOf cfg c served, some served)

/-- A pass that accepts established channels only makes the same choice, whatever else it finds. -/
theorem greedy_of_pass {input : AdmittedPass} {r : PassResult}
    {assigned : Channel → Option (List ResolvedPort)}
    (hpass : muxPass cfg input.toPassInput = .ok r)
    (hassigned : ∀ c served, assigned c = some served →
      ∃ explicitPorts, Established cfg input.toPassInput c explicitPorts served)
    (haccepted : ∀ c served, (c, Outcome.accepted served) ∈ r.reports → assigned c = some served) :
    Loop.run (greedyStep cfg (muxPortLimit cfg input.mux).1 assigned) (sortChannels input.channels) ∅ =
      .ok (r.final.ports, r.reports.map fun report => (report.1, report.2.acceptedPorts)) := by
  obtain ⟨start, hstart, hrun, -⟩ := muxPass_eq_ok hpass
  obtain ⟨e, he⟩ := started_of_passStart hstart
  have hempty : start.loop.ports = ∅ := by rw [he.loop]
  rw [he.maxPorts] at hrun
  let P := fun s : LoopState => s.Sound ∧ ∀ c served explicitPorts, assigned c = some served →
    Established cfg input.toPassInput c explicitPorts served → Secured cfg c explicitPorts served s
  rw [← hempty]
  refine Loop.run_simulates LoopState.ports Outcome.acceptedPorts P
    ⟨he.sound, fun c served explicitPorts _ h => secured_at_start h he⟩ ?_ hrun
  rintro s c s' outcome hreport ⟨hs, hsecured⟩ hstep
  have hc := input.mem_channels_of_mem_reports hpass hreport
  refine ⟨⟨sound_channelStep hs hstep, fun d served explicitPorts hd h =>
    secured_step hs h.servedAt (hsecured d served explicitPorts hd h) h.mem hc hstep⟩, ?_⟩
  unfold greedyStep
  cases hassign : assigned c with
  | none =>
    obtain ⟨-, ⟨rejection, rfl⟩, hports, -⟩ | ⟨resolved, -, rfl, -⟩ := channelStep_cases hstep
    · rw [hports]
      rfl
    · rw [haccepted c resolved hreport] at hassign
      cases hassign
  | some served =>
    obtain ⟨explicitPorts, h⟩ := hassigned c served hassign
    have hsec := hsecured c served explicitPorts hassign h
    cases hfits : wouldExceedMuxPortLimit s.ports c (muxPortLimit cfg input.mux).1 with
    | true =>
      obtain ⟨-, ⟨rejection, rfl⟩, hports, -⟩ | ⟨-, hstays, -⟩ := channelStep_cases hstep
      · simp [hports, Outcome.acceptedPorts]
      · exact absurd (Or.inl hfits) hstays
    | false =>
      obtain rfl := accepted_of_secured h.servedAt hsec hfits hstep
      simp [(acceptedTurn_of_step hstep).ports, Outcome.acceptedPorts]

end SvcLbMux
