import SvcLbMux.NextPass
import SvcLbMux.Recovery

namespace SvcLbMux

open Py

variable {cfg : Config}

/-- The reports of a pass, on the channels as the pass leaves them. -/
def reportsAfter (cfg : Config) (reports : List (Channel × Outcome)) : List (Channel × Outcome) :=
  reports.map fun report => (channelAfter cfg report, report.2)

/-- A pass finds what the pass over `input` has left, except that the state ConfigMap is lost, and
perhaps the mux ports are reset to the placeholder. -/
structure FollowsLoss (cfg : Config) (input : PassInput) (r : PassResult) (next : PassInput) :
    Prop where
  ranges : (muxPortRanges cfg next.mux).1 = (muxPortRanges cfg input.mux).1
  limit : (muxPortLimit cfg next.mux).1 = (muxPortLimit cfg input.mux).1
  muxPorts : oldMuxPorts next.mux.ports = .ok r.muxPorts ∨
    oldMuxPorts next.mux.ports = .ok {placeholderMuxPort}
  lost : ∃ state, (muxStore cfg next.mux).load next.configmap = .ok state ∧ stateClaims state = []
  channels : next.channels.Perm (r.reports.map (channelAfter cfg))

/-! ## What the pass before has left -/

section Before

variable {input : AdmittedPass} {r : PassResult} {c d : Channel} {served served' : List ResolvedPort}

/-- Nobody shares an allocated port, not even the channel itself. -/
theorem eq_of_allocated (hpass : muxPass cfg input.toPassInput = .ok r)
    {explicitPorts : Dict String PortRequest} (hserved : ServedAt cfg c explicitPorts served)
    (hreport : (c, Outcome.accepted served) ∈ r.reports) {p : ResolvedPort}
    (hp : Allocated explicitPorts served p) (hreport' : (d, Outcome.accepted served') ∈ r.reports)
    {q : ResolvedPort} (hq : q ∈ served') (hkey : q.key = p.key) : d = c ∧ q = p := by
  have hc := input.mem_channels_of_mem_reports hpass hreport
  have hd := input.mem_channels_of_mem_reports hpass hreport'
  have howner : d.owner cfg q.port = c.owner cfg p.port :=
    r.final.registry.functional (hkey ▸ owned_of_reports hpass hreport' hq)
      (owned_of_reports hpass hreport hp.1)
  obtain rfl := input.eq_of_key_eq hd hc
    (key_eq_of_owner_eq (input.admitted d hd) (input.admitted c hc) howner)
  obtain rfl : served' = served := by
    injection input.eq_of_mem_reports hpass hreport' hreport
  refine ⟨rfl, ?_⟩
  obtain ⟨start, hstart, -⟩ := muxPass_eq_ok hpass
  obtain ⟨explicitPorts', st, hserved', -, hheld⟩ := turn_of_accepted hpass hstart hreport
  obtain rfl := Except.ok.inj (hserved.claims.symm.trans hserved'.claims)
  by_cases hauto : explicitPorts.get q.port.portName = some .auto
  · -- Two allocated ports have different claims, each alone on its listener.
    obtain ⟨claim, hget, hl⟩ := (hheld q ⟨hq, hauto⟩).claimed
    have hclaimKey := (hheld p hp).alone _ claim hget (hkey ▸ hl)
    by_contra hne
    have hport : q.port ≠ p.port :=
      fun h => hne (AllServed.eq_of_port_eq hserved (input.admitted d hd) hq hp.1 h)
    exact MuxState.claimKey_ne_of_ne (input.admitted d hd) (mem_ports_of_mem hserved hq)
      (mem_ports_of_mem hserved hp.1)
      ((channelPortClaims_eq_ok hserved.claims).2 _ (mem_ports_of_mem hserved hq)) hport hclaimKey
  · -- An allocated port is not one that is asked for by number.
    refine absurd ?_ (unrequested_of_accepted hpass hserved hreport p hp d hd)
    refine ⟨explicitPorts, hserved.claims, q.port, mem_ports_of_mem hserved hq, hauto, ?_⟩
    rw [← hkey]
    exact Prod.ext (hserved.static q hq hauto).1 rfl

theorem fits_of_accepted (hpass : muxPass cfg input.toPassInput = .ok r)
    {before after : List (Channel × Outcome)}
    (hsplit : r.reports = before ++ (c, Outcome.accepted served) :: after) :
    wouldExceedMuxPortLimit (acceptedMuxPorts cfg before).toFinset c (muxPortLimit cfg input.mux).1 =
      false := by
  obtain ⟨start, hstart, hrun, -⟩ := muxPass_eq_ok hpass
  obtain ⟨e, he⟩ := started_of_passStart hstart
  rw [hsplit] at hrun
  obtain ⟨rest, s, s', hchannels, hbefore, hstep⟩ := Loop.exists_step_of_log hrun
  have hcollected := collected_of_reaches ⟨start, _, _, hstart, hchannels, hbefore⟩
  have hports : s.ports = (acceptedMuxPorts cfg before).toFinset := by
    ext m
    rw [List.mem_toFinset, hcollected.ports]
  rw [← hports, ← he.maxPorts]
  exact (acceptedTurn_of_step hstep).fits

end Before

/-! ## What the next pass still knows -/

section After

variable {input next : AdmittedPass} {r : PassResult}

theorem mem_servedPorts_reportsAfter {reports : List (Channel × Outcome)} {e : ServedPort} :
    e ∈ servedPorts (reportsAfter cfg reports) ↔ ∃ c served,
      (c, Outcome.accepted served) ∈ reports ∧ e.channel = channelAfter cfg (c, .accepted served) ∧
        e.resolved ∈ served := by
  rw [mem_servedPorts, reportsAfter]
  constructor
  · rintro ⟨served, hreport, hr⟩
    obtain ⟨⟨c, outcome⟩, hmem, heq⟩ := List.mem_map.mp hreport
    obtain ⟨hchannel, rfl⟩ := Prod.mk.inj heq
    exact ⟨c, served, hmem, hchannel.symm, hr⟩
  · rintro ⟨c, served, hmem, hchannel, hr⟩
    exact ⟨served, List.mem_map.mpr ⟨_, hmem, by rw [hchannel]⟩, hr⟩

theorem acceptedMuxPorts_reportsAfter (reports : List (Channel × Outcome)) :
    acceptedMuxPorts cfg (reportsAfter cfg reports) = acceptedMuxPorts cfg reports := by
  rw [acceptedMuxPorts, acceptedMuxPorts, reportsAfter, List.flatMap_map]
  congr 1
  funext report
  have hkey : (channelAfter cfg report).key = report.1.key := key_channelAfter report
  obtain ⟨c, outcome⟩ := report
  cases outcome with
  | rejected rejection => rfl
  | accepted served =>
    refine List.map_congr_left fun p _ => ?_
    rw [ResolvedPort.toMuxPort, ResolvedPort.toMuxPort, muxName_of_key_eq hkey]

theorem owned_of_served (hpass : muxPass cfg input.toPassInput = .ok r) {e : ServedPort}
    (he : e ∈ servedPorts (reportsAfter cfg r.reports)) :
    (e.key, e.owner cfg) ∈ r.final.registry.holds := by
  obtain ⟨c, served, hreport, hchannel, hp⟩ := mem_servedPorts_reportsAfter.mp he
  have hkey : e.channel.key = c.key := hchannel ▸ key_channelAfter (c, Outcome.accepted served)
  rw [ServedPort.owner, owner_of_key_eq hkey]
  exact owned_of_reports hpass hreport hp

theorem allocated_of_auto (hpass : muxPass cfg input.toPassInput = .ok r) {e : ServedPort}
    (he : e ∈ servedPorts (reportsAfter cfg r.reports)) (hauto : e.Auto cfg) :
    ∃ c served explicitPorts, (c, Outcome.accepted served) ∈ r.reports ∧
      e.channel = channelAfter cfg (c, .accepted served) ∧
      ServedAt cfg c explicitPorts served ∧ Allocated explicitPorts served e.resolved := by
  obtain ⟨c, served, hreport, hchannel, hp⟩ := mem_servedPorts_reportsAfter.mp he
  obtain ⟨start, hstart, -⟩ := muxPass_eq_ok hpass
  obtain ⟨explicitPorts, -, hserved, -⟩ := turn_of_accepted hpass hstart hreport
  refine ⟨c, served, explicitPorts, hreport, hchannel, hserved, hp, ?_⟩
  obtain ⟨explicitPorts', hclaims, hget⟩ := hauto
  rw [hchannel, channelPortClaims_channelAfter, hserved.claims] at hclaims
  obtain rfl := Except.ok.inj hclaims
  exact hget

theorem eq_of_auto (hpass : muxPass cfg input.toPassInput = .ok r) {e e' : ServedPort}
    (he : e ∈ servedPorts (reportsAfter cfg r.reports)) (hauto : e.Auto cfg)
    (he' : e' ∈ servedPorts (reportsAfter cfg r.reports)) (hkey : e'.key = e.key) : e' = e := by
  obtain ⟨c, served, explicitPorts, hreport, hchannel, hserved, hp⟩ :=
    allocated_of_auto hpass he hauto
  obtain ⟨d, served', hreport', hchannel', hq⟩ := mem_servedPorts_reportsAfter.mp he'
  obtain ⟨rfl, hsame⟩ := eq_of_allocated hpass hserved hreport hp hreport' hq hkey
  rw [input.eq_of_mem_reports hpass hreport' hreport, ← hchannel] at hchannel'
  obtain ⟨c, p⟩ := e
  obtain ⟨d, q⟩ := e'
  exact congrArg₂ ServedPort.mk hchannel' hsame

variable (hpass : muxPass cfg input.toPassInput = .ok r)
  (haccepted : ∀ c outcome, (c, outcome) ∈ r.reports → ∃ served, outcome = .accepted served)
  (hloss : FollowsLoss cfg input.toPassInput r next.toPassInput)

include hpass haccepted hloss

theorem allServed_reportsAfter : AllServed cfg (reportsAfter cfg r.reports) := by
  refine ⟨?_, ?_, ?_⟩
  · intro report hreport
    refine next.admitted _ (hloss.channels.mem_iff.mpr ?_)
    obtain ⟨before, hbefore, rfl⟩ := List.mem_map.mp hreport
    exact List.mem_map_of_mem hbefore
  · have hkeys := (hloss.channels.map Channel.key).nodup_iff.mp next.distinct
    rw [List.map_map] at hkeys
    rwa [reportsAfter, List.map_map]
  · intro report hreport
    obtain ⟨⟨c, outcome⟩, hbefore, rfl⟩ := List.mem_map.mp hreport
    obtain ⟨served, rfl⟩ := haccepted c outcome hbefore
    obtain ⟨start, hstart, -⟩ := muxPass_eq_ok hpass
    obtain ⟨explicitPorts, -, hserved, -⟩ := turn_of_accepted hpass hstart hbefore
    refine ⟨explicitPorts, served, rfl, ?_, ?_, hserved.static⟩
    · exact (channelPortClaims_channelAfter _).trans hserved.claims
    · rw [ports_channelAfter]
      exact hserved.ports

omit haccepted in
theorem sortChannels_next :
    sortChannels next.channels = (reportsAfter cfg r.reports).map Prod.fst := by
  obtain ⟨start, -, hrun, -⟩ := muxPass_eq_ok hpass
  have hchannels : (reportsAfter cfg r.reports).map Prod.fst = r.reports.map (channelAfter cfg) := by
    rw [reportsAfter, List.map_map]
    rfl
  have hkeys : (r.reports.map (channelAfter cfg)).map channelSortKey =
      (sortChannels input.channels).map channelSortKey := by
    rw [← Loop.map_fst_run hrun, List.map_map, List.map_map]
    exact List.map_congr_left fun report _ => congrArg toLex (key_channelAfter report)
  have hsorted : (r.reports.map (channelAfter cfg)).Pairwise
      fun a b => channelSortKey a ≤ channelSortKey b := by
    rw [← List.pairwise_map (f := channelSortKey) (R := fun a b => a ≤ b), hkeys, List.pairwise_map]
    exact pairwise_sortBy channelSortKey _
  rw [hchannels]
  exact next.sortChannels_eq hloss.channels hsorted

theorem listed_after {c : Channel} {served : List ResolvedPort}
    (hreport : (c, Outcome.accepted served) ∈ reportsAfter cfg r.reports) :
    ∃ mappings, parsePortMappings (c.annotation cfg.annotationPorts) = .ok mappings ∧
      ∀ key owner, (key, owner) ∈ annotatedListeners cfg c mappings ↔
        ∃ p ∈ served, p.key = key ∧ c.owner cfg p.port = owner := by
  have hall := allServed_reportsAfter hpass haccepted hloss
  obtain ⟨⟨d, outcome⟩, hbefore, hafter⟩ := List.mem_map.mp hreport
  obtain ⟨rfl, rfl⟩ := Prod.mk.inj hafter
  obtain ⟨start, hstart, -⟩ := muxPass_eq_ok hpass
  obtain ⟨explicitPorts, -, hserved, -⟩ := turn_of_accepted hpass hstart hbefore
  have hserved' : ServedAt cfg (channelAfter cfg (d, .accepted served)) explicitPorts served :=
    ⟨(channelPortClaims_channelAfter _).trans hserved.claims, (ports_channelAfter _).symm ▸ hserved.ports,
      hserved.static⟩
  refine mem_annotatedListeners_served (hall.admitted _ hreport) hserved' (fun p hp => ?_)
    (annotation_channelAfter d served)
  by_cases hauto : explicitPorts.get p.port.portName = some .auto
  · exact rangesValid_muxPortRanges _ (inRange_of_allocated hpass hserved hbefore ⟨hp, hauto⟩)
  · exact (hserved.static p hp hauto).2

/-- The mux ports name at most the owners of the served ports. -/
theorem served_of_muxPort {oldPorts : Finset MuxPort}
    (hold : oldMuxPorts next.mux.ports = .ok oldPorts) {m : MuxPort} (hm : m ∈ oldPorts)
    {owner : String} (hsole : Dict.soleElement
      (((channelOwnersByMuxName cfg (sortChannels next.channels)).get m.name).getD []) = some owner) :
    ∃ e ∈ servedPorts (reportsAfter cfg r.reports), e.key = m.key ∧ e.owner cfg = owner := by
  have hall := allServed_reportsAfter hpass haccepted hloss
  obtain ⟨c, -, p, -, -, hname, -⟩ :=
    mem_get_channelOwnersByMuxName.mp (Dict.mem_of_soleElement hsole)
  have hlength : m.name.toList.length = 7 := hname ▸ length_muxName
  have hmem : m ∈ acceptedMuxPorts cfg (reportsAfter cfg r.reports) := by
    rw [acceptedMuxPorts_reportsAfter]
    rcases hloss.muxPorts with hmux | hmux
    · obtain rfl := Except.ok.inj (hmux.symm.trans hold)
      exact mem_acceptedMuxPorts_of_muxPorts hpass hm hlength
    · -- Nobody has the name of the placeholder.
      obtain rfl := Except.ok.inj (hmux.symm.trans hold)
      rw [Finset.mem_singleton.mp hm] at hlength
      exact absurd hlength (by decide)
  rw [← map_toMuxPort_servedPorts] at hmem
  obtain ⟨e, he, rfl⟩ := List.mem_map.mp hmem
  obtain ⟨explicitPorts, served, hreport, hserved, hr⟩ := hall.servedAt he
  have hp := mem_ports_of_mem hserved hr
  have hchannel : e.channel ∈ sortChannels next.channels := by
    rw [sortChannels_next hpass hloss]
    exact List.mem_map_of_mem hreport
  refine ⟨e, he, rfl, Dict.eq_of_mem_of_soleElement ?_ hsole⟩
  exact mem_get_channelOwnersByMuxName.mpr ⟨e.channel, hchannel, e.resolved.port, hp,
    (channelPortClaims_eq_ok hserved.claims).2 _ hp, rfl, rfl⟩

/-- What is left of the evidence names exactly the owners of the served ports. -/
theorem namesOwner_iff {oldPorts : Finset MuxPort} (hold : oldMuxPorts next.mux.ports = .ok oldPorts)
    (key : PortKey) (owner : String) :
    NamesOwner cfg (sortChannels next.channels) (next.order.toList oldPorts) key owner ↔
      ∃ e ∈ servedPorts (reportsAfter cfg r.reports), e.key = key ∧ e.owner cfg = owner := by
  have hall := allServed_reportsAfter hpass haccepted hloss
  have hsorted := sortChannels_next hpass hloss
  constructor
  · rintro (⟨m, hm, rfl, hsole⟩ | ⟨c, hc, mappings, hparse, hmem⟩)
    · exact served_of_muxPort hpass haccepted hloss hold ((next.order.mem_toList _ m).mp hm) hsole
    · rw [hsorted] at hc
      obtain ⟨⟨c, outcome⟩, hreport, rfl⟩ := List.mem_map.mp hc
      obtain ⟨explicitPorts, served, rfl, -⟩ := hall.served _ hreport
      obtain ⟨mappings', hparse', hlisted⟩ := listed_after hpass haccepted hloss hreport
      obtain rfl := Except.ok.inj (hparse.symm.trans hparse')
      obtain ⟨p, hp, hkey, howner⟩ := (hlisted key owner).mp hmem
      exact ⟨⟨c, p⟩, mem_servedPorts.mpr ⟨served, hreport, hp⟩, hkey, howner⟩
  · rintro ⟨e, he, rfl, rfl⟩
    obtain ⟨served, hreport, hp⟩ := mem_servedPorts.mp he
    obtain ⟨mappings, hparse, hlisted⟩ := listed_after hpass haccepted hloss hreport
    refine Or.inr ⟨e.channel, ?_, mappings, hparse, (hlisted _ _).mpr ⟨e.resolved, hp, rfl, rfl⟩⟩
    rw [hsorted]
    exact List.mem_map_of_mem hreport

section Start

variable {start : PassStart} {e : StartEvidence} (he : Started cfg next.toPassInput start e)

include he

omit hpass haccepted in
theorem get_claims_after_loss (key : String) :
    (e.muxState next.toPassInput).claims.get key = none := by
  obtain ⟨state, hload, hempty⟩ := hloss.lost
  have hstate : e.state = state :=
    Except.ok.inj ((state_of_load he ⟨state, hload⟩).1.symm.trans hload)
  cases hget : (e.muxState next.toPassInput).claims.get key with
  | none => rfl
  | some claim =>
    obtain ⟨-, listed, hlisted, -⟩ := MuxState.exists_mem_of_get_claims_init hget
    rw [hstate, hempty] at hlisted
    simp at hlisted

theorem recovered_after_loss (key : PortKey) (o : String) : e.recovered.get key = some o ↔
    ∃ e' ∈ servedPorts (reportsAfter cfg r.reports), e'.key = key ∧ e'.owner cfg = o := by
  rw [← namesOwner_iff hpass haccepted hloss he.oldPorts]
  refine get_collectExistingPortOwners_iff he.recovered fun o o' ho ho' => ?_
  rw [namesOwner_iff hpass haccepted hloss he.oldPorts] at ho ho'
  obtain ⟨e₁, he₁, rfl, rfl⟩ := ho
  obtain ⟨e₂, he₂, hkey, rfl⟩ := ho'
  exact r.final.registry.functional (owned_of_served hpass he₁) (hkey ▸ owned_of_served hpass he₂)

theorem restored_start : Restored cfg (servedPorts (reportsAfter cfg r.reports)) [] start.loop := by
  have hall := allServed_reportsAfter hpass haccepted hloss
  have hnone := get_claims_after_loss hloss he
  have hrecovered := recovered_after_loss hpass haccepted hloss he
  have hranges : e.ranges = (muxPortRanges cfg next.mux).1 :=
    (state_of_load he (hloss.lost.imp fun _ h => h.1)).2.1
  refine ⟨he.sound, ?_, ?_, fun key o => ?_, ?_⟩
  · rw [he.loop]
    refine ⟨hall.nodup_servedPorts, fun e he e' he' => hall.eq_of_claimKey_eq he he', hrecovered,
      fun key => ?_, fun e' he' hauto => ?_, fun _ he' hauto _ => eq_of_auto hpass he' hauto⟩
    · change key ∈ e.reservedPorts ↔ _
      rw [mem_collectStaticPortClaims he.reserved, ← hall.staticallyRequested_iff,
        sortChannels_next hpass hloss]
    · obtain ⟨c, served, explicitPorts, hreport, -, hserved, hp⟩ :=
        allocated_of_auto hpass he' hauto
      change containsPort e.ranges _ = true
      rw [hranges, hloss.ranges]
      exact inRange_of_allocated hpass hserved hreport hp
  · rw [he.loop]
    refine ⟨fun key claim hget => ?_, by simp⟩
    have hget' : (e.muxState next.toPassInput).claims.get key = some claim := hget
    rw [hnone] at hget'
    cases hget'
  · rw [he.get_portOwners, ← hrecovered]
    cases howner : ((e.muxState next.toPassInput).portOwners cfg).get key with
    | none => rfl
    | some o' =>
      obtain ⟨k, claim, hget, -⟩ := MuxState.exists_claim_of_get_portOwners howner
      rw [hnone] at hget
      cases hget
  · rw [he.loop]
    rfl

end Start

omit haccepted in
theorem readable_after_loss : Readable cfg next.toPassInput := by
  have hports : ∃ oldPorts, oldMuxPorts next.mux.ports = .ok oldPorts :=
    hloss.muxPorts.elim (fun h => ⟨_, h⟩) fun h => ⟨_, h⟩
  refine ⟨(oldMuxPorts_ok_iff _).mp hports, fun c hc => ?_⟩
  obtain ⟨report, hreport, rfl⟩ := List.mem_map.mp (hloss.channels.subset hc)
  exact readable_channelAfter hpass hreport

theorem fits_after_loss {before after : List (Channel × Outcome)} {c : Channel} {outcome : Outcome}
    (hsplit : reportsAfter cfg r.reports = before ++ (c, outcome) :: after) :
    wouldExceedMuxPortLimit (acceptedMuxPorts cfg before).toFinset c (muxPortLimit cfg next.mux).1 =
      false := by
  obtain ⟨before', rest, hreports, rfl, hrest⟩ := List.map_eq_append_iff.mp hsplit
  obtain ⟨⟨d, outcome'⟩, after', rfl, hd, -⟩ := List.map_eq_cons_iff.mp hrest
  obtain ⟨rfl, rfl⟩ := Prod.mk.inj hd
  obtain ⟨served, rfl⟩ := haccepted d outcome' (by simp [hreports])
  have hfits := fits_of_accepted hpass hreports
  have hbefore : acceptedMuxPorts cfg (reportsAfter cfg before') = acceptedMuxPorts cfg before' :=
    acceptedMuxPorts_reportsAfter before'
  rw [reportsAfter] at hbefore
  rw [hbefore, hloss.limit]
  unfold wouldExceedMuxPortLimit channelDeclaredPortCount at hfits ⊢
  rwa [ports_channelAfter]

end After

/-- After a pass that accepted every channel the state ConfigMap is lost, and perhaps the mux ports
with it. The next pass serves every channel at the same ports exactly when, for each allocated port,
everything that comes before it in the port range is taken. -/
theorem ports_survive_loss_iff (cfg : Config) (input next : AdmittedPass) (r : PassResult)
    (hpass : muxPass cfg input.toPassInput = .ok r)
    (haccepted : ∀ c outcome, (c, outcome) ∈ r.reports → ∃ served, outcome = .accepted served)
    (hloss : FollowsLoss cfg input.toPassInput r next.toPassInput) :
    (∃ r', muxPass cfg next.toPassInput = .ok r' ∧ r'.reports = reportsAfter cfg r.reports) ↔
      ∀ before e after, servedPorts (reportsAfter cfg r.reports) = before ++ e :: after →
        e.Foremost cfg (muxPortRanges cfg input.mux).1 (servedPorts (reportsAfter cfg r.reports))
          before := by
  obtain ⟨r', hpass'⟩ := next.muxPass_ok_iff.mpr (readable_after_loss hpass hloss)
  obtain ⟨start, hstart, hrun, -⟩ := muxPass_eq_ok hpass'
  obtain ⟨e, he⟩ := started_of_passStart hstart
  have hranges : start.loop.muxState.ranges = (muxPortRanges cfg input.mux).1 := by
    obtain ⟨state, hload, -⟩ := hloss.lost
    rw [he.loop, ← hloss.ranges]
    exact (state_of_load he ⟨state, hload⟩).2.1
  rw [he.maxPorts, sortChannels_next hpass hloss] at hrun
  have hserved := served_again_iff (allServed_reportsAfter hpass haccepted hloss)
    (restored_start hpass haccepted hloss he)
    (fun _ _ _ _ hsplit => fits_after_loss hpass haccepted hloss hsplit) hrun
  rw [hranges] at hserved
  constructor
  · rintro ⟨r'', hpass'', hreports⟩
    obtain rfl := Except.ok.inj (hpass'.symm.trans hpass'')
    exact hserved.mp hreports
  · exact fun hforemost => ⟨r', hpass', hserved.mpr hforemost⟩

/-- The cluster of `web` before and after the loss: only the mux ports and the ConfigMap may differ. -/
def webPass (web : Channel) (muxPorts : List (String × Int)) (configmap : Option ConfigMap)
    (hadmitted : web.Admitted) : AdmittedPass where
  mux := sampleMux [("svc-mux.nowake.ai/port-range", "9000-9001")] muxPorts
  channels := [web]
  configmap := configmap
  order := sampleOrder
  admitted := by simpa using hadmitted
  distinct := by simp

theorem admitted_autoWeb : autoWeb.Admitted := by decide +kernel

/-- The first port of the range is found again, although the mux ports were reset as well. -/
theorem ports_survive_loss_autoWeb :
    ∃ r', muxPass sampleConfig
        (webPass autoWeb [("placeholder", 101)] none admitted_autoWeb).toPassInput = .ok r' ∧
      r'.reports = [(autoWeb, .accepted autoWebServed)] := by
  let input := webPass autoWeb [("07bb300", 9000)] (some autoWebConfigmap) admitted_autoWeb
  let next := webPass autoWeb [("placeholder", 101)] none admitted_autoWeb
  obtain ⟨r, hpass, hreports⟩ : ∃ r, muxPass sampleConfig input.toPassInput = .ok r ∧
      r.reports = [(autoWeb, .accepted autoWebServed)] := by decide +kernel
  have hafter : reportsAfter sampleConfig r.reports = [(autoWeb, .accepted autoWebServed)] := by
    rw [hreports]
    decide +kernel
  have hloss : FollowsLoss sampleConfig input.toPassInput r next.toPassInput := by
    refine ⟨rfl, rfl, Or.inr rfl, ⟨none, rfl, rfl⟩, ?_⟩
    rw [hreports]
    decide +kernel
  have hfirst : (rangePorts (muxPortRanges sampleConfig input.mux).1).takeWhile (· ≠ 9000) = [] := by
    decide +kernel
  obtain ⟨r', hpass', hreports'⟩ := (ports_survive_loss_iff sampleConfig input next r hpass
    (by simp [hreports]) hloss).mpr (by
      rw [hafter]
      rintro before e after hsplit - n hn
      rcases List.cons_eq_append_iff.mp hsplit with ⟨rfl, he⟩ | ⟨front, -, hrest⟩
      · obtain ⟨rfl, -⟩ := List.cons.inj he
        change n ∈ (rangePorts (muxPortRanges sampleConfig input.mux).1).takeWhile (· ≠ 9000) at hn
        rw [hfirst] at hn
        simp at hn
      · simp at hrest)
  exact ⟨r', hpass', hreports'.trans hafter⟩

/-- The channel `web` as it is when it is served at port 9001, the other port of the range being free
since another channel was deleted. -/
def lateWeb : Channel := sampleChannel "web" "http" 80
  [("svc-mux.nowake.ai/external-ports", "http:auto"), ("svc-mux.nowake.ai/ports", "http:80->9001")]

theorem admitted_lateWeb : lateWeb.Admitted := by decide +kernel

/-- Without its claim `web` is moved, although its mux port and its annotation are still there. -/
theorem port_moved_by_loss_lateWeb :
    ∃ r, muxPass sampleConfig (webPass lateWeb [("07bb300", 9001)]
        (some (sampleConfigmap [sampleClaim "web" 80 9001 "auto"])) admitted_lateWeb).toPassInput =
          .ok r ∧
      (∀ c outcome, (c, outcome) ∈ r.reports → ∃ served, outcome = .accepted served) ∧
      FollowsLoss sampleConfig (webPass lateWeb [("07bb300", 9001)]
        (some (sampleConfigmap [sampleClaim "web" 80 9001 "auto"])) admitted_lateWeb).toPassInput r
        (webPass lateWeb [("07bb300", 9001)] none admitted_lateWeb).toPassInput ∧
      (∃ r', muxPass sampleConfig
          (webPass lateWeb [("07bb300", 9001)] none admitted_lateWeb).toPassInput = .ok r' ∧
        r'.reports = [(lateWeb, .accepted [⟨⟨some "http", 80, some "TCP"⟩, 9000⟩])]) ∧
      ¬ ∃ r', muxPass sampleConfig
          (webPass lateWeb [("07bb300", 9001)] none admitted_lateWeb).toPassInput = .ok r' ∧
        r'.reports = reportsAfter sampleConfig r.reports := by
  obtain ⟨r, hpass, hreports, hports⟩ : ∃ r, muxPass sampleConfig (webPass lateWeb [("07bb300", 9001)]
      (some (sampleConfigmap [sampleClaim "web" 80 9001 "auto"])) admitted_lateWeb).toPassInput =
        .ok r ∧
      r.reports = [(lateWeb, .accepted [⟨⟨some "http", 80, some "TCP"⟩, 9001⟩])] ∧
      r.muxPorts = {⟨"07bb300", 9001, "TCP"⟩} := by decide +kernel
  refine ⟨r, hpass, by simp [hreports], ⟨rfl, rfl, Or.inl ?_, ⟨none, rfl, rfl⟩, ?_⟩,
    by decide +kernel, ?_⟩
  · rw [hports]
    rfl
  · rw [hreports]
    decide +kernel
  · rw [hreports]
    decide +kernel

end SvcLbMux
