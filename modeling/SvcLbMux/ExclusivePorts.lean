import Mathlib.Data.List.Flatten
import SvcLbMux.Pass

namespace SvcLbMux

open Py

variable {cfg : Config}

/-- The mux ports of a channel that the loop has handled. -/
def reportedMuxPorts (cfg : Config) (report : Channel × Outcome) : List MuxPort :=
  match report.2 with
  | .accepted resolved => resolved.map (ResolvedPort.toMuxPort cfg report.1)
  | .rejected _ => []

/-- The mux ports of the accepted channels, one for each of their declared ports. -/
def acceptedMuxPorts (cfg : Config) (reports : List (Channel × Outcome)) : List MuxPort :=
  reports.flatMap (reportedMuxPorts cfg)

/-- What holds after every turn: each collected mux port is owned under its own name, and the
collected ports are those of the accepted channels. -/
structure Collected (cfg : Config) (reports : List (Channel × Outcome)) (s : LoopState) : Prop where
  owned : ∀ m ∈ s.ports, m.name.toList.length = 7 ∧
    ∃ namespace_ name, s.portOwners.get m.key = some (ownerText namespace_ name m.name)
  ports : ∀ m, m ∈ s.ports ↔ m ∈ acceptedMuxPorts cfg reports
  resolved : ∀ c resolved, (c, Outcome.accepted resolved) ∈ reports →
    (∃ muxState, (processChannelPorts cfg c muxState).1 = .ok resolved)

theorem ports_of_processChannelPorts {c : Channel} {st : MuxState} {resolved : List ResolvedPort}
    (h : (processChannelPorts cfg c st).1 = .ok resolved) :
    resolved.map ResolvedPort.port = c.ports ∧ ∀ p ∈ c.ports, p.unnamed = false := by
  obtain ⟨e, -, herr⟩ | ⟨explicitPorts, resolved', hclaims, -, hok⟩ :=
    @resolveChannelPorts_rule _ (MuxState.allocate cfg) cfg c st (fun _ _ _ => True)
      (fun _ _ _ _ _ _ _ => ⟨fun _ _ => trivial, fun _ _ => trivial⟩)
      (fun _ _ _ _ _ _ _ _ _ => trivial) (fun _ _ => trivial)
  · rw [processChannelPorts, herr] at h
    cases h
  · obtain ⟨rfl, hports⟩ := hok resolved h
    exact ⟨hports, (channelPortClaims_eq_ok hclaims).2⟩

theorem collected_step {muxKey : String × String} {maxPorts : Option Int}
    {reports : List (Channel × Outcome)} {s s' : LoopState} {c : Channel} {outcome : Outcome}
    (hs : Collected cfg reports s) (h : channelStep cfg muxKey maxPorts s c = .ok (s', outcome)) :
    Collected cfg (reports ++ [(c, outcome)]) s' := by
  have hsplit : acceptedMuxPorts cfg (reports ++ [(c, outcome)]) =
      acceptedMuxPorts cfg reports ++ reportedMuxPorts cfg (c, outcome) := by
    simp [acceptedMuxPorts]
  obtain ⟨-, ⟨rejection, rfl⟩, hports, howners, -⟩ |
    ⟨resolved, -, rfl, hresolve, hcompat, hports, hregistry, -⟩ := channelStep_cases h
  · -- Rejected: the report adds no mux port, and the ports and the owners are as before.
    refine ⟨?_, fun m => ?_, fun d resolved hd => ?_⟩
    · rw [hports, howners]
      exact hs.owned
    · rw [hsplit, hports, hs.ports]
      simp [reportedMuxPorts]
    · rcases List.mem_append.mp hd with hd | hd
      · exact hs.resolved d resolved hd
      · simp at hd
  · -- Accepted: old mux ports keep their owner, and the new ones are what the channel asked for.
    refine ⟨fun m hm => ?_, fun m => ?_, fun d resolved' hd => ?_⟩
    · rw [hports, Finset.mem_union] at hm
      rcases hm with hm | hm
      · obtain ⟨hlen, ns, name, howner⟩ := hs.owned m hm
        exact ⟨hlen, ns, name, (mem_registry _ _ _).mp
          (holds_subset_channelStep h ((mem_registry _ _ _).mpr howner))⟩
      · obtain ⟨r, hr, rfl⟩ := List.mem_map.mp (List.mem_toFinset.mp hm)
        refine ⟨length_muxName, c.namespace_, c.name, ?_⟩
        have hheld : (r.key, c.owner cfg r.port) ∈ s'.registry.holds := by
          rw [hregistry, Registry.offer_of_compatible hcompat]
          exact Or.inr ⟨r, hr, rfl⟩
        exact hheld
    · rw [hsplit, hports, Finset.mem_union, List.mem_append, hs.ports]
      simp [reportedMuxPorts, muxPortsOf]
    · rcases List.mem_append.mp hd with hd | hd
      · exact hs.resolved d resolved' hd
      · simp only [List.mem_singleton, Prod.mk.injEq, Outcome.accepted.injEq] at hd
        obtain ⟨rfl, rfl⟩ := hd
        exact ⟨s.muxState, hresolve⟩

theorem collected_of_reaches {input : PassInput} {s : LoopState}
    {reports : List (Channel × Outcome)} (h : PassReaches cfg input s reports) :
    Collected cfg reports s := by
  obtain ⟨start, before, after, hstart, -, hrun⟩ := h
  refine Loop.run_log_invariant (Collected cfg) ?_ (fun _ _ _ _ _ _ => collected_step) hrun
  obtain ⟨e, he⟩ := started_of_passStart hstart
  have hempty : start.loop.ports = ∅ := by rw [he.loop]
  refine ⟨?_, ?_, ?_⟩
  · simp [hempty]
  · simp [hempty, acceptedMuxPorts]
  · simp

/-- The channels of a pass are reported in their sorted order, as far as the loop came. -/
theorem map_fst_reports {input : PassInput} {s : LoopState} {reports : List (Channel × Outcome)}
    (h : PassReaches cfg input s reports) :
    reports.map Prod.fst <+: sortChannels input.channels := by
  obtain ⟨start, before, after, -, hchannels, hrun⟩ := h
  rw [Loop.map_fst_run hrun, hchannels]
  exact List.prefix_append before after

theorem resolved_at_turn {input : PassInput} {s : LoopState} {reports : List (Channel × Outcome)}
    (h : PassReaches cfg input s reports) {c : Channel} {resolved : List ResolvedPort}
    (hreport : (c, Outcome.accepted resolved) ∈ reports) :
    ∃ met, PassMeets cfg input c met ∧
      (processChannelPorts cfg c met.muxState).1 = .ok resolved := by
  obtain ⟨start, handled, left, hstart, hchannels, hrun⟩ := h
  obtain ⟨before, after, rfl⟩ := List.append_of_mem hreport
  obtain ⟨rest, met, met', hhandled, hbefore, hstep⟩ := Loop.exists_step_of_log hrun
  refine ⟨met, ⟨start, hstart, before.map Prod.fst, rest ++ left, before, ?_, hbefore⟩,
    (acceptedTurn_of_step hstep).resolves⟩
  rw [hchannels, hhandled, List.append_assoc, List.cons_append]

/-- The listener of a collected mux port has one owner, and its text ends in the name of the mux
port. -/
theorem eq_of_key_eq_of_collected {reports : List (Channel × Outcome)} {s : LoopState}
    (h : Collected cfg reports s) {m m' : MuxPort} (hm : m ∈ s.ports) (hm' : m' ∈ s.ports)
    (hkey : m.key = m'.key) : m = m' := by
  obtain ⟨hlen, ns, name, howner⟩ := h.owned m hm
  obtain ⟨hlen', ns', name', howner'⟩ := h.owned m' hm'
  rw [hkey, howner'] at howner
  have hname := muxName_eq_of_ownerText_eq (hlen'.trans hlen.symm) (Option.some.inj howner)
  obtain ⟨n, p, q⟩ := m
  obtain ⟨n', p', q'⟩ := m'
  obtain ⟨rfl, rfl⟩ := Prod.mk.inj hkey
  rw [show n' = n from hname]

theorem eq_of_key_eq_of_muxPorts {input : PassInput} {r : PassResult}
    (hpass : muxPass cfg input = .ok r) {m m' : MuxPort} (hm : m ∈ r.muxPorts)
    (hm' : m' ∈ r.muxPorts) (hkey : m.key = m'.key) : m = m' := by
  obtain ⟨start, -, -, hmux, -⟩ := muxPass_eq_ok hpass
  rw [hmux, buildMuxPorts] at hm hm'
  split_ifs at hm hm'
  · rw [Finset.mem_singleton.mp hm, Finset.mem_singleton.mp hm']
  · exact eq_of_key_eq_of_collected (collected_of_reaches (passReaches_of_muxPass hpass))
      (Finset.mem_filter.mp hm).1 (Finset.mem_filter.mp hm').1 hkey

/-- The mux ports of a pass are those of the accepted channels, apart from the placeholder. -/
theorem mem_acceptedMuxPorts_of_muxPorts {input : PassInput} {r : PassResult}
    (hpass : muxPass cfg input = .ok r) {m : MuxPort} (hm : m ∈ r.muxPorts)
    (hlength : m.name.toList.length = 7) : m ∈ acceptedMuxPorts cfg r.reports := by
  obtain ⟨start, -, -, hmux, -⟩ := muxPass_eq_ok hpass
  rw [hmux, buildMuxPorts] at hm
  rw [← (collected_of_reaches (passReaches_of_muxPass hpass)).ports]
  split_ifs at hm
  · -- The placeholder has a longer name.
    rw [Finset.mem_singleton.mp hm] at hlength
    exact absurd hlength (by decide)
  · exact (Finset.mem_filter.mp hm).1

theorem port_of_mem_reportedMuxPorts {reports : List (Channel × Outcome)} {s : LoopState}
    (h : Collected cfg reports s) {c : Channel} {outcome : Outcome}
    (hreport : (c, outcome) ∈ reports) {m : MuxPort} (hm : m ∈ reportedMuxPorts cfg (c, outcome)) :
    (∃ resolved, outcome = .accepted resolved) ∧ ∃ p ∈ c.ports, m.name = c.muxName cfg p := by
  cases outcome with
  | rejected rejection => simp [reportedMuxPorts] at hm
  | accepted resolved =>
    obtain ⟨port, hport, rfl⟩ := List.mem_map.mp hm
    obtain ⟨muxState, hresolve⟩ := h.resolved c resolved hreport
    exact ⟨⟨resolved, rfl⟩, port.port,
      (ports_of_processChannelPorts hresolve).1 ▸ List.mem_map_of_mem hport, rfl⟩

theorem accepted_of_mem_muxPorts {input : PassInput} {r : PassResult}
    (hpass : muxPass cfg input = .ok r) {m : MuxPort} (hm : m ∈ r.muxPorts)
    (hlength : m.name.toList.length = 7) :
    ∃ c resolved, (c, .accepted resolved) ∈ r.reports ∧ ∃ p ∈ c.ports, m.name = c.muxName cfg p := by
  obtain ⟨⟨c, outcome⟩, hreport, hin⟩ :=
    List.mem_flatMap.mp (mem_acceptedMuxPorts_of_muxPorts hpass hm hlength)
  obtain ⟨⟨resolved, rfl⟩, hport⟩ := port_of_mem_reportedMuxPorts
    (collected_of_reaches (passReaches_of_muxPass hpass)) hreport hin
  exact ⟨c, resolved, hreport, hport⟩

theorem mem_muxPorts_of_accepted {input : PassInput} {r : PassResult}
    (hpass : muxPass cfg input = .ok r) {c : Channel} {resolved : List ResolvedPort}
    (hreport : (c, .accepted resolved) ∈ r.reports) {p : ResolvedPort} (hp : p ∈ resolved) :
    p.toMuxPort cfg c ∈ r.muxPorts := by
  obtain ⟨start, -, -, hmux, -⟩ := muxPass_eq_ok hpass
  have hmem : p.toMuxPort cfg c ∈ r.final.ports :=
    ((collected_of_reaches (passReaches_of_muxPass hpass)).ports _).mpr
      (List.mem_flatMap.mpr ⟨_, hreport, List.mem_map_of_mem hp⟩)
  rw [hmux, buildMuxPorts, if_neg (Finset.ne_empty_of_mem hmem)]
  refine Finset.mem_filter.mpr ⟨hmem, fun hname => ?_⟩
  have hlength : (p.toMuxPort cfg c).name.toList.length = 7 := length_muxName
  rw [hname] at hlength
  exact absurd hlength (by decide)

theorem nodup_reportedMuxPorts {channels : List Channel} (hdigest : DigestInjectiveOn cfg channels)
    {c : Channel} (hc : c ∈ channels) (hnames : (c.ports.map (·.name)).Nodup)
    {resolved : List ResolvedPort} (hports : resolved.map ResolvedPort.port = c.ports)
    (hnamed : ∀ p ∈ c.ports, p.unnamed = false) :
    (reportedMuxPorts cfg (c, .accepted resolved)).Nodup := by
  have hnodup : c.ports.Nodup := List.Nodup.of_map _ hnames
  have hmem : ∀ r ∈ resolved, r.port ∈ c.ports := fun r hr => hports ▸ List.mem_map_of_mem hr
  refine List.Nodup.map_on (fun r hr r' hr' heq => ?_)
    (List.Nodup.of_map ResolvedPort.port (by rw [hports]; exact hnodup))
  have hname : c.muxName cfg r.port = c.muxName cfg r'.port := congrArg MuxPort.name heq
  obtain ⟨-, hport⟩ := hdigest c hc _ (hmem r hr) c hc _ (hmem r' hr') hname
  have hsame : r.port = r'.port :=
    eq_of_portName_eq hnames (hmem r hr) (hmem r' hr') (hnamed _ (hmem r hr)) hport
  exact List.inj_on_of_nodup_map (by rw [hports]; exact hnodup) hr hr' hsame

theorem nodup_acceptedMuxPorts {input : PassInput}
    (hdistinct : (input.channels.map Channel.key).Nodup)
    (hnames : ∀ c ∈ input.channels, (c.ports.map (·.name)).Nodup)
    (hdigest : DigestInjectiveOn cfg input.channels) {s : LoopState}
    {reports : List (Channel × Outcome)} (hreach : PassReaches cfg input s reports) :
    (acceptedMuxPorts cfg reports).Nodup := by
  have hcollected := collected_of_reaches hreach
  have hhead := map_fst_reports hreach
  have hperm : (sortChannels input.channels).Perm input.channels := perm_sortBy _ _
  have hmem : ∀ c outcome, (c, outcome) ∈ reports → c ∈ input.channels := fun c outcome h =>
    hperm.subset (hhead.subset (List.mem_map.mpr ⟨_, h, rfl⟩))
  have hkeys : (reports.map fun e => e.1.key).Nodup := by
    have h : (reports.map Prod.fst).map Channel.key <+:
        (sortChannels input.channels).map Channel.key := hhead.map _
    rw [List.map_map] at h
    exact h.sublist.nodup ((hperm.map Channel.key).nodup_iff.mpr hdistinct)
  rw [acceptedMuxPorts, List.nodup_flatMap]
  constructor
  · -- Within one channel the mux names differ because the port names do.
    rintro ⟨c, outcome⟩ hreport
    cases outcome with
    | rejected rejection => exact List.nodup_nil
    | accepted resolved =>
      obtain ⟨muxState, hresolve⟩ := hcollected.resolved c resolved hreport
      obtain ⟨hports, hnamed⟩ := ports_of_processChannelPorts hresolve
      exact nodup_reportedMuxPorts hdigest (hmem c _ hreport) (hnames c (hmem c _ hreport)) hports
        hnamed
  · -- Between two channels they differ because the namespaces or the names do.
    rw [List.Nodup, List.pairwise_map] at hkeys
    refine hkeys.imp_of_mem ?_
    rintro ⟨c, outcome⟩ ⟨d, outcome'⟩ hreport hreport' hne m hm hm'
    obtain ⟨-, p, hp, hname⟩ := port_of_mem_reportedMuxPorts hcollected hreport hm
    obtain ⟨-, q, hq, hname'⟩ := port_of_mem_reportedMuxPorts hcollected hreport' hm'
    exact hne (hdigest c (hmem c _ hreport) p hp d (hmem d _ hreport') q hq
      (hname.symm.trans hname')).1

/-- In every pass, whatever the evidence it starts from, and as far as its loop comes: no two of
the collected mux ports are on one listener; and where the digest does not collide, the collected
ports are the declared ports of the accepted channels, each once, as `resolve_channel_ports`
chose them with the allocator that the loop had at their turns. -/
theorem collected_ports_exclusive_and_lossless (cfg : Config) (input : PassInput)
    (hdistinct : (input.channels.map Channel.key).Nodup)
    (hnames : ∀ c ∈ input.channels, (c.ports.map (·.name)).Nodup)
    {s : LoopState} {reports : List (Channel × Outcome)}
    (hreach : PassReaches cfg input s reports) :
    (∀ m ∈ s.ports, ∀ m' ∈ s.ports, m.key = m'.key → m = m') ∧
      (∀ c resolved, (c, Outcome.accepted resolved) ∈ reports →
        c ∈ input.channels ∧ resolved.map ResolvedPort.port = c.ports ∧
          ∃ met, PassMeets cfg input c met ∧
            (processChannelPorts cfg c met.muxState).1 = .ok resolved) ∧
      (DigestInjectiveOn cfg input.channels →
        (acceptedMuxPorts cfg reports).Nodup ∧
          (acceptedMuxPorts cfg reports).toFinset = s.ports) := by
  have hcollected := collected_of_reaches hreach
  refine ⟨fun m hm m' hm' hkey => ?_, fun c resolved hacc => ?_, fun hdigest => ⟨?_, ?_⟩⟩
  · exact eq_of_key_eq_of_collected hcollected hm hm' hkey
  · obtain ⟨met, hmeets, hresolve⟩ := resolved_at_turn hreach hacc
    have hsorted := (map_fst_reports hreach).subset (List.mem_map.mpr ⟨_, hacc, rfl⟩)
    exact ⟨(perm_sortBy _ _).subset hsorted, (ports_of_processChannelPorts hresolve).1, met,
      hmeets, hresolve⟩
  · exact nodup_acceptedMuxPorts hdistinct hnames hdigest hreach
  · ext m
    rw [List.mem_toFinset]
    exact (hcollected.ports m).symm

/-- Two channels ask for port 80, one of them for an allocated one. -/
def autoAndStaticPass : PassInput where
  mux := sampleMux [("svc-mux.nowake.ai/port-range", "9000-9001")] [("placeholder", 101)]
  channels := [sampleChannel "web" "http" 80 [],
    sampleChannel "api" "http" 80 [("svc-mux.nowake.ai/external-ports", "http:auto")]]
  configmap := none
  order := sampleOrder

theorem collected_ports_of_autoAndStaticPass :
    ∃ r, muxPass sampleConfig autoAndStaticPass = .ok r ∧
      (sampleChannel "web" "http" 80 [],
        Outcome.accepted [⟨⟨some "http", 80, some "TCP"⟩, 80⟩]) ∈ r.reports ∧
      (acceptedMuxPorts sampleConfig r.reports).Nodup ∧
      (acceptedMuxPorts sampleConfig r.reports).toFinset = r.final.ports := by
  obtain ⟨r, hr, haccepted⟩ : ∃ r, muxPass sampleConfig autoAndStaticPass = .ok r ∧
      (sampleChannel "web" "http" 80 [],
        Outcome.accepted [⟨⟨some "http", 80, some "TCP"⟩, 80⟩]) ∈ r.reports := by decide +kernel
  have hdigest : DigestInjectiveOn sampleConfig autoAndStaticPass.channels := by
    unfold DigestInjectiveOn
    decide +kernel
  obtain ⟨-, -, h⟩ := collected_ports_exclusive_and_lossless sampleConfig autoAndStaticPass
    (by decide +kernel) (by decide +kernel) (passReaches_of_muxPass hr)
  exact ⟨r, hr, haccepted, (h hdigest).1, (h hdigest).2⟩

end SvcLbMux
