import SvcLbMux.Allocator
import SvcLbMux.ExclusivePorts

namespace SvcLbMux

open Py

variable {cfg : Config}

/-- The state in which the loop over the channels starts on this evidence (`Started.loop`). -/
def StartEvidence.loopState (cfg : Config) (input : PassInput) (e : StartEvidence) : LoopState :=
  ⟨∅, e.recovered.update ((e.muxState input).portOwners cfg), e.muxState input⟩

/-- An accepted channel has claims on the listeners that it was given. -/
def ClaimedByAccepted (channels : List Channel) (s : LoopState) (key : PortKey) : Prop :=
  ∃ d ∈ channels, ∃ q ∈ d.ports, ∃ claim, s.muxState.claims.get (d.claimKey q) = some claim ∧
    claim.listener = some key

/-- Where an owner in the loop comes from: it is known from the start, or it belongs to a channel
that was accepted since. -/
def OwnersTraced (start : LoopState) (reports : List (Channel × Outcome)) (s : LoopState) : Prop :=
  ∀ key owner, (key, owner) ∈ s.registry.holds → (key, owner) ∈ start.registry.holds ∨
    ClaimedByAccepted (reports.map Prod.fst) s key

section Turns

variable {input : AdmittedPass} {muxKey : String × String} {maxPorts : Option Int}
  {start s s' : LoopState} {c : Channel} {outcome : Outcome}

theorem notMem_of_head {channels : List Channel}
    (h : channels ++ [c] <+: sortChannels input.channels) : c ∉ channels := by
  have hnodup := h.sublist.nodup (List.Nodup.of_map _ input.nodup_sortChannels)
  exact fun hc => (List.nodup_append.mp hnodup).2.2 c hc c (by simp) rfl

theorem claimedByAccepted_step {channels : List Channel}
    (hhead : channels ++ [c] <+: sortChannels input.channels) {key : PortKey}
    (h : ClaimedByAccepted channels s key)
    (hstep : channelStep cfg muxKey maxPorts s c = .ok (s', outcome)) :
    ClaimedByAccepted channels s' key := by
  obtain ⟨d, hd, q, hq, claim, hget, hl⟩ := h
  have hne : c ≠ d := fun heq => notMem_of_head hhead (heq ▸ hd)
  have hmem : ∀ x ∈ channels ++ [c], x ∈ input.channels :=
    fun x hx => mem_sortChannels.mp (hhead.subset hx)
  refine ⟨d, hd, q, hq, claim, ?_, hl⟩
  rw [get_claims_channelStep_ne (fun p _ => input.claimKey_ne (hmem d (by simp [hd]))
    (hmem c (by simp)) hne hq) hstep]
  exact hget

theorem ownersTraced_step {reports : List (Channel × Outcome)} (hs : s.Sound)
    (htraced : OwnersTraced start reports s)
    (hhead : reports.map Prod.fst ++ [c] <+: sortChannels input.channels)
    (hstep : channelStep cfg muxKey maxPorts s c = .ok (s', outcome)) :
    OwnersTraced start (reports ++ [(c, outcome)]) s' := by
  have hc : c ∈ input.channels := mem_sortChannels.mp (hhead.subset (by simp))
  have hold : ∀ key owner, (key, owner) ∈ s.registry.holds →
      (key, owner) ∈ start.registry.holds ∨
        ClaimedByAccepted ((reports ++ [(c, outcome)]).map Prod.fst) s' key := by
    intro key owner hholds
    refine (htraced key owner hholds).imp id fun h => ?_
    obtain ⟨d, hd, hclaimed⟩ := claimedByAccepted_step hhead h hstep
    exact ⟨d, by simp [hd], hclaimed⟩
  intro key owner hholds
  obtain ⟨-, -, -, howners, -⟩ | ⟨resolved, -, rfl, hresolve, hcompat, -, hregistry, -⟩ :=
    channelStep_cases hstep
  · refine hold key owner ?_
    rw [mem_registry, howners] at hholds
    exact hholds
  · rw [hregistry, Registry.offer_of_compatible hcompat] at hholds
    rcases hholds with hholds | ⟨r, hr, heq⟩
    · exact hold key owner hholds
    · -- The claim of a port that was accepted now is recorded.
      obtain ⟨rfl, rfl⟩ := Prod.mk.inj heq
      obtain ⟨hp, hrecorded⟩ :=
        recorded_of_accepted (input.admitted c hc) hs.wellKeyed hs.ranges hstep hr
      exact Or.inr ⟨c, by simp, r.port, hp, _, hrecorded, MuxState.listener_recordedClaim r⟩

theorem ownersTraced_of_turn (hstart : start.Sound)
    (hturn : Loop.Turn (channelStep cfg muxKey maxPorts) (sortChannels input.channels) start c s) :
    s.Sound ∧ ∀ key owner, (key, owner) ∈ s.registry.holds → (key, owner) ∈ start.registry.holds ∨
      ∃ channels, channels ++ [c] <+: sortChannels input.channels ∧
        ClaimedByAccepted channels s key := by
  obtain ⟨before, after, reports, hsplit, hrun⟩ := hturn
  have hbefore : before <+: sortChannels input.channels := hsplit ▸ List.prefix_append _ _
  have htraced := Loop.run_log_invariant (fun reports s => s.Sound ∧ OwnersTraced start reports s)
    ⟨hstart, fun _ _ h => Or.inl h⟩
    (fun _ _ _ _ _ hhead h hstep => ⟨sound_channelStep h.1 hstep,
      ownersTraced_step h.1 h.2 (hhead.trans hbefore) hstep⟩) hrun
  refine ⟨htraced.1, fun key owner hholds => (htraced.2 key owner hholds).imp id fun h => ?_⟩
  rw [Loop.map_fst_run hrun] at h
  exact ⟨before, ⟨after, by simp [hsplit]⟩, h⟩

end Turns

namespace MuxState

/-- The claims after the allocations for some ports of a channel. -/
def allocateAll (cfg : Config) (c : Channel) (ports : List ServicePort) (st : MuxState) : MuxState :=
  ports.foldl (fun st p => (allocate cfg c p st).2) st

/-- What is due to a port of a channel when the ports before it have got what they are due. -/
def DueInTurn (cfg : Config) (st : MuxState) (c : Channel) (p : ServicePort) (port : Int) : Prop :=
  ∃ before after, c.ports = before ++ p :: after ∧ (st.allocateAll cfg c before).Due cfg c p port

theorem due_of_resolveDeclaredPorts {c : Channel} {explicitPorts : Dict String PortRequest}
    {ports : List ServicePort} {st : MuxState} {resolved : List ResolvedPort}
    (hauto : ∀ p ∈ ports, explicitPorts.get p.portName = some .auto)
    (h : (resolveDeclaredPorts (allocate cfg) c explicitPorts ports st).1 = .ok resolved) :
    ∀ before r after, resolved = before ++ r :: after →
      (st.allocateAll cfg c (before.map ResolvedPort.port)).Due cfg c r.port r.muxPort := by
  induction ports generalizing st resolved with
  | nil =>
    obtain rfl := Except.ok.inj h
    simp
  | cons p ports ih =>
    rw [resolveDeclaredPorts, resolveChannelExternalPort_auto (hauto p (by simp))] at h
    rcases hallocate : allocate cfg c p st with ⟨e | n, st'⟩
    · rw [hallocate] at h
      cases h
    · rw [hallocate] at h
      dsimp only at h
      rcases hrest : resolveDeclaredPorts (allocate cfg) c explicitPorts ports st' with
        ⟨e | rest, st''⟩
      · rw [hrest] at h
        cases h
      · rw [hrest] at h
        obtain rfl := Except.ok.inj h
        intro before r after hsplit
        cases before with
        | nil =>
          obtain ⟨rfl, rfl⟩ := List.cons.inj hsplit
          exact allocate_eq_ok_iff_due.mp (congrArg Prod.fst hallocate)
        | cons q before =>
          obtain ⟨rfl, htail⟩ := List.cons.inj hsplit
          have hdue := @ih st' rest (fun q hq => hauto q (List.mem_cons_of_mem _ hq))
            (congrArg Prod.fst hrest) before r after htail
          rw [List.map_cons, allocateAll, List.foldl_cons, hallocate]
          exact hdue

theorem dueInTurn_iff {c : Channel} {explicitPorts : Dict String PortRequest} {st : MuxState}
    {resolved : List ResolvedPort} (hclaims : channelPortClaims cfg c = .ok explicitPorts)
    (hauto : ∀ p ∈ c.ports, explicitPorts.get p.portName = some .auto)
    (h : (processChannelPorts cfg c st).1 = .ok resolved) (p : ServicePort) (port : Int) :
    st.DueInTurn cfg c p port ↔ ⟨p, port⟩ ∈ resolved := by
  have hports := (ports_of_processChannelPorts h).1
  rw [processChannelPorts, resolveChannelPorts, hclaims] at h
  have hdue := due_of_resolveDeclaredPorts hauto h
  constructor
  · rintro ⟨before, after, hsplit, hp⟩
    rw [← hports] at hsplit
    obtain ⟨done, rest, rfl, hdone, hrest⟩ := List.map_eq_append_iff.mp hsplit
    obtain ⟨r, tail, rfl, rfl, -⟩ := List.map_eq_cons_iff.mp hrest
    have hr := hdue done r tail rfl
    rw [hdone, ← allocate_eq_ok_iff_due] at hr
    rw [← allocate_eq_ok_iff_due, hr] at hp
    obtain rfl := Except.ok.inj hp
    simp
  · intro hmem
    obtain ⟨done, rest, rfl⟩ := List.append_of_mem hmem
    exact ⟨done.map ResolvedPort.port, rest.map ResolvedPort.port, by rw [← hports]; simp,
      hdue done ⟨p, port⟩ rest rfl⟩

end MuxState

/-! ## The conflict check -/

section Conflicts

variable {input : AdmittedPass} {e : StartEvidence} {muxKey : String × String}
  {maxPorts : Option Int} {s s' : LoopState} {c : Channel} {outcome : Outcome}

theorem conflict_iff (h : channelStep cfg muxKey maxPorts s c = .ok (s', outcome))
    {resolved : List ResolvedPort}
    (hresolve : (processChannelPorts cfg c s.muxState).1 = .ok resolved) :
    (∃ resolved conflicts, outcome = .rejected (.portConflict resolved conflicts)) ↔
      wouldExceedMuxPortLimit s.ports c maxPorts = false ∧
        ¬ s.registry.Compatible (requestsOf cfg c resolved) := by
  have hcompat := conflicts_eq_nil_iff cfg s c resolved
  unfold channelStep at h
  split_ifs at h with hlimit
  · obtain ⟨rfl, rfl⟩ := Prod.mk.inj (Except.ok.inj h)
    simp [hlimit]
  · simp only [hresolve] at h
    split_ifs at h with hconflicts
    · obtain ⟨rfl, rfl⟩ := Prod.mk.inj (Except.ok.inj h)
      exact ⟨fun _ => ⟨Bool.eq_false_iff.mpr hlimit, fun hc => hconflicts (hcompat.mpr hc)⟩,
        fun _ => ⟨_, _, rfl⟩⟩
    · split at h
      · cases h
      · obtain ⟨rfl, rfl⟩ := Prod.mk.inj (Except.ok.inj h)
        have hc := hcompat.mp (not_not.mp hconflicts)
        simp [hc]

theorem sound_loopState (hranges : ∀ port, containsPort e.ranges port = true →
    1 ≤ port ∧ port ≤ 65535) : (e.loopState cfg input.toPassInput).Sound :=
  ⟨MuxState.wellKeyed_init, MuxState.normalized_init, hranges⟩

theorem eq_of_held (hc : c.Admitted) {st : MuxState} {resolved : List ResolvedPort}
    (hports : resolved.map ResolvedPort.port = c.ports)
    (hnamed : ∀ p ∈ c.ports, p.unnamed = false) {r r' : ResolvedPort} (hr : r ∈ resolved)
    (hr' : r' ∈ resolved) (hheld : st.Held cfg c r) (hheld' : st.Held cfg c r')
    (hkey : r.key = r'.key) : r.port = r'.port := by
  have hp : r.port ∈ c.ports := hports ▸ List.mem_map_of_mem hr
  have hp' : r'.port ∈ c.ports := hports ▸ List.mem_map_of_mem hr'
  obtain ⟨claim, hget, hl⟩ := hheld'.claimed
  by_contra hne
  exact MuxState.claimKey_ne_of_ne hc hp' hp (hnamed _ hp') (Ne.symm hne)
    (hheld.alone _ claim hget (hkey ▸ hl))

theorem get_portOwners_loopState (input : PassInput) (e : StartEvidence) (key : PortKey) :
    (e.loopState cfg input).portOwners.get key =
      (((e.muxState input).portOwners cfg).get key).or (e.recovered.get key) :=
  Dict.get_update _ _ key

section Allocated

theorem mem_and_fixed_of_turn
    (hturn : Loop.Turn (channelStep cfg muxKey maxPorts) (sortChannels input.channels)
      (e.loopState cfg input.toPassInput) c s) :
    c ∈ input.channels ∧ s.muxState.fixed = (e.muxState input.toPassInput).fixed := by
  obtain ⟨before, after, log, hsplit, hrun⟩ := hturn
  refine ⟨mem_sortChannels.mp (hsplit ▸ by simp), ?_⟩
  exact Loop.run_invariant (fun s => s.muxState.fixed = (e.muxState input.toPassInput).fixed) rfl
    (fun _ _ _ _ _ hs hstep => (fixed_channelStep hstep).trans hs) hrun

variable (hranges : ∀ port, containsPort e.ranges port = true → 1 ≤ port ∧ port ≤ 65535)
  (hturn : Loop.Turn (channelStep cfg muxKey maxPorts) (sortChannels input.channels)
    (e.loopState cfg input.toPassInput) c s)
include hranges hturn

/-- Whoever else owns a listener that was just allocated, had the first loaded claim on it. -/
theorem loaded_of_owner_of_held {r : ResolvedPort}
    (hheld : (processChannelPorts cfg c s.muxState).2.Held cfg c r) {o : String}
    (hholds : (r.key, o) ∈ s.registry.holds) :
    o = c.owner cfg r.port ∨
      ((e.muxState input.toPassInput).portOwners cfg).get r.key = some o := by
  obtain ⟨hc, hfixed⟩ := mem_and_fixed_of_turn hturn
  obtain ⟨hs, htraced⟩ := ownersTraced_of_turn (sound_loopState hranges) hturn
  rcases htraced _ _ hholds with hstart | ⟨channels, hhead, d, hd, q, hq, claim, hget, hl⟩
  · -- Known from the start: by a loaded claim, or recovered.
    rw [mem_registry, get_portOwners_loopState, Option.or_eq_some_iff] at hstart
    rcases hstart with hstart | ⟨-, hrecovered⟩
    · exact Or.inr hstart
    · have hfixed' : (processChannelPorts cfg c s.muxState).2.fixed =
          (e.muxState input.toPassInput).fixed := MuxState.fixed_resolve.trans hfixed
      refine Or.inl (hheld.undisputed o ?_)
      rw [MuxState.reservedPortOwners_of_fixed hfixed']
      exact hrecovered
  · -- Claimed by a channel that was accepted before: then it was not allocated.
    have hne : c ≠ d := fun heq => notMem_of_head hhead (heq ▸ hd)
    have hd' : d ∈ input.channels := mem_sortChannels.mp (hhead.subset (by simp [hd]))
    have hkeys : ∀ p, c.claimKey p ≠ d.claimKey q := fun p => input.claimKey_ne hd' hc hne hq
    have hkept : (processChannelPorts cfg c s.muxState).2.claims.get (d.claimKey q) = some claim :=
      MuxState.resolve_invariant (fun st => st.claims.get (d.claimKey q) = some claim)
        (fun st p _ h => (MuxState.get_claims_allocate_ne c p (hkeys p)).trans h) hget
    exact absurd (hheld.alone _ claim hkept hl).symm (hkeys r.port)

theorem compatible_iff_loaded {explicitPorts : Dict String PortRequest}
    (hclaims : channelPortClaims cfg c = .ok explicitPorts)
    (hauto : ∀ p ∈ c.ports, explicitPorts.get p.portName = some .auto)
    {resolved : List ResolvedPort}
    (hresolve : (processChannelPorts cfg c s.muxState).1 = .ok resolved) :
    s.registry.Compatible (requestsOf cfg c resolved) ↔
      ∀ r ∈ resolved, ∀ o, ((e.muxState input.toPassInput).portOwners cfg).get r.key = some o →
        o = c.owner cfg r.port := by
  obtain ⟨hmem, -⟩ := mem_and_fixed_of_turn hturn
  obtain ⟨hs, -⟩ := ownersTraced_of_turn (sound_loopState hranges) hturn
  have hc := input.admitted c hmem
  obtain ⟨explicitPorts', hclaims', hports, hall, -⟩ :=
    resolved_spec hc hs.wellKeyed hs.ranges hresolve
  obtain rfl := Except.ok.inj (hclaims.symm.trans hclaims')
  have hheld : ∀ r ∈ resolved, (processChannelPorts cfg c s.muxState).2.Held cfg c r := fun r hr =>
    (hall r hr).auto (hauto _ (hports ▸ List.mem_map_of_mem hr))
  rw [Registry.compatible_iff]
  constructor
  · rintro ⟨hforeign, -⟩ r hr o ho
    obtain ⟨before, after, log, -, hrun⟩ := hturn
    have hholds : (r.key, o) ∈ s.registry.holds := by
      refine Loop.run_invariant (fun s => (r.key, o) ∈ s.registry.holds) ?_
        (fun _ _ _ _ _ hs hstep => holds_subset_channelStep hstep hs) hrun
      rw [mem_registry, get_portOwners_loopState, ho, Option.some_or]
    exact hforeign hholds ⟨r, hr, rfl⟩
  · intro hloaded
    refine ⟨?_, ?_⟩
    · rintro k o o' hholds ⟨r, hr, heq⟩
      obtain ⟨rfl, rfl⟩ := Prod.mk.inj heq
      exact (loaded_of_owner_of_held hranges hturn (hheld r hr) hholds).elim id (hloaded r hr o)
    · rintro k o o' ⟨r, hr, heq⟩ ⟨r', hr', heq'⟩
      obtain ⟨rfl, rfl⟩ := Prod.mk.inj heq
      obtain ⟨hkey, rfl⟩ := Prod.mk.inj heq'
      rw [eq_of_held hc hports (channelPortClaims_eq_ok hclaims).2 hr hr' (hheld r hr)
        (hheld r' hr') hkey]

end Allocated

/-- A channel whose ports are all allocated is refused by the conflict check exactly when a port is
due to it at its turn that a loaded claim gave to another owner first: that claim must have left the
port since, but its owner is still in the map. -/
theorem allocated_ports_unrefused_iff (cfg : Config) (input : AdmittedPass) (e : StartEvidence)
    (hranges : ∀ port, containsPort e.ranges port = true → 1 ≤ port ∧ port ≤ 65535)
    (muxKey : String × String) (maxPorts : Option Int) (c : Channel) (s : LoopState)
    (hturn : Loop.Turn (channelStep cfg muxKey maxPorts) (sortChannels input.channels)
      (e.loopState cfg input.toPassInput) c s)
    (explicitPorts : Dict String PortRequest)
    (hclaims : channelPortClaims cfg c = .ok explicitPorts)
    (hauto : ∀ p ∈ c.ports, explicitPorts.get p.portName = some .auto)
    (hallocated : wouldExceedMuxPortLimit s.ports c maxPorts = false →
      ∃ resolved, (processChannelPorts cfg c s.muxState).1 = .ok resolved)
    (s' : LoopState) (outcome : Outcome)
    (hstep : channelStep cfg muxKey maxPorts s c = .ok (s', outcome)) :
    (¬ ∃ resolved conflicts, outcome = .rejected (.portConflict resolved conflicts)) ↔
      wouldExceedMuxPortLimit s.ports c maxPorts = true ∨
        ∀ p port, s.muxState.DueInTurn cfg c p port → ∀ o,
          ((e.muxState input.toPassInput).portOwners cfg).get (port, p.protocolOrTcp) = some o →
            o = c.owner cfg p := by
  cases hlimit : wouldExceedMuxPortLimit s.ports c maxPorts with
  | true =>
    refine iff_of_true ?_ (Or.inl rfl)
    rintro ⟨resolved, conflicts, rfl⟩
    simp [channelStep, hlimit] at hstep
  | false =>
    obtain ⟨resolved, hresolve⟩ := hallocated hlimit
    rw [conflict_iff hstep hresolve, hlimit,
      compatible_iff_loaded hranges hturn hclaims hauto hresolve]
    simp only [true_and, not_not, Bool.false_eq_true, false_or,
      MuxState.dueInTurn_iff hclaims hauto hresolve]
    exact ⟨fun h p port hmem => h ⟨p, port⟩ hmem, fun h r hr => h r.port r.muxPort hr⟩

end Conflicts

/-! ## Two claims on one port -/

def autoChannel (name : String) : Channel :=
  sampleChannel name "http" 80 [("svc-mux.nowake.ai/external-ports", "http:auto")]

/-- The state was edited by hand: both channels claim port 9000. -/
def duplicatedPass : AdmittedPass where
  mux := sampleMux [("svc-mux.nowake.ai/port-range", "9000-9001")] [("placeholder", 101)]
  channels := [autoChannel "a", autoChannel "b"]
  configmap := some (sampleConfigmap [sampleClaim "a" 80 9000 "auto", sampleClaim "b" 80 9000 "auto"])
  order := sampleOrder
  admitted := by decide +kernel
  distinct := by decide +kernel

def duplicatedEvidence : StartEvidence where
  oldPorts := {placeholderMuxPort}
  recovered := Dict.empty
  reservedPorts := ∅
  ranges := [(9000, 9001)]
  state := some
    { mux := some (some "default", some "mux")
      portClaims := some [sampleClaim "a" 80 9000 "auto", sampleClaim "b" 80 9000 "auto"]
      allocations := some [] }

/-- The first of the two moves to the free port and is accepted there. -/
theorem allocated_port_unrefused_duplicatedPass :
    (∃ r, channelStep sampleConfig ("default", "mux") none
      (duplicatedEvidence.loopState sampleConfig duplicatedPass.toPassInput) (autoChannel "a") =
        .ok r ∧ r.2 = .accepted [⟨⟨some "http", 80, some "TCP"⟩, 9001⟩]) ∧
    ∀ p port, (duplicatedEvidence.loopState sampleConfig duplicatedPass.toPassInput).muxState.DueInTurn
      sampleConfig (autoChannel "a") p port → ∀ o,
        ((duplicatedEvidence.muxState duplicatedPass.toPassInput).portOwners sampleConfig).get
          (port, p.protocolOrTcp) = some o → o = (autoChannel "a").owner sampleConfig p := by
  have haccepted : ∃ r, channelStep sampleConfig ("default", "mux") none
      (duplicatedEvidence.loopState sampleConfig duplicatedPass.toPassInput) (autoChannel "a") =
        .ok r ∧ r.2 = .accepted [⟨⟨some "http", 80, some "TCP"⟩, 9001⟩] := by decide +kernel
  refine ⟨haccepted, ?_⟩
  obtain ⟨⟨s', outcome⟩, hstep, houtcome⟩ := haccepted
  have hranges : ∀ port, containsPort duplicatedEvidence.ranges port = true →
      1 ≤ port ∧ port ≤ 65535 := by
    intro port hport
    simp only [containsPort, duplicatedEvidence, List.any_cons, List.any_nil, Bool.or_false,
      Bool.and_eq_true, decide_eq_true_eq] at hport
    omega
  have hallocated : ∃ resolved, (processChannelPorts sampleConfig (autoChannel "a")
      (duplicatedEvidence.loopState sampleConfig duplicatedPass.toPassInput).muxState).1 =
        .ok resolved := ⟨[⟨⟨some "http", 80, some "TCP"⟩, 9001⟩], by decide +kernel⟩
  have hiff := allocated_ports_unrefused_iff sampleConfig duplicatedPass duplicatedEvidence hranges
    ("default", "mux") none (autoChannel "a") _ ⟨[], [autoChannel "b"], [], by decide +kernel, rfl⟩
    (Dict.ofList [("http", .auto)]) (by decide +kernel) (by decide +kernel) (fun _ => hallocated)
    s' outcome hstep
  refine (hiff.mp ?_).resolve_left (by decide +kernel)
  rintro ⟨resolved, conflicts, rfl⟩
  cases houtcome

/-- The second one keeps port 9000, which nobody else claims any more, and is refused. -/
theorem allocated_port_refused_duplicatedPass :
    channelPortClaims sampleConfig (autoChannel "b") = .ok (Dict.ofList [("http", .auto)]) ∧
      ∃ r, muxPass sampleConfig duplicatedPass.toPassInput = .ok r ∧
        (autoChannel "b", Outcome.rejected (.portConflict [⟨⟨some "http", 80, some "TCP"⟩, 9000⟩]
          ["9000/TCP is already claimed by default/a:320356d"])) ∈
            r.reports := by
  decide +kernel

end SvcLbMux
