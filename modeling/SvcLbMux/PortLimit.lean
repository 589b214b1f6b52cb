import SvcLbMux.ExclusivePorts

namespace SvcLbMux

open Py

variable {cfg : Config}

/-! ## The limit of a mux -/

/-- A limit allows at least one port, and at most 100 on GKE. -/
theorem effectiveMuxMaxPorts_bounds {mux : MuxService} {m : Int}
    (h : effectiveMuxMaxPorts cfg mux = .ok (some m)) :
    1 ≤ m ∧ (isGkeLoadBalancerService mux = true → m ≤ 100) := by
  have hgke : gkeServiceLoadbalancerMaxPorts = 100 := rfl
  unfold effectiveMuxMaxPorts at h
  cases hrequested : requestedMaxPorts cfg mux with
  | error e => simp [hrequested, Except.map] at h
  | ok requested =>
    have hpos : ∀ n, requested = some n → 1 ≤ n := by
      rintro n rfl
      unfold requestedMaxPorts at hrequested
      dsimp only at hrequested
      split at hrequested
      · cases hrequested
      split at hrequested
      · cases hrequested
      split at hrequested
      · cases hrequested
      · rename_i hle
        obtain rfl := Option.some.inj (Except.ok.inj hrequested)
        omega
    simp only [hrequested, Except.map, Except.ok.injEq] at h
    cases hservice : isGkeLoadBalancerService mux with
    | false =>
      simp only [hservice, Bool.not_false, if_true] at h
      exact ⟨hpos m h, by simp⟩
    | true =>
      simp only [hservice, Bool.not_true, Bool.false_eq_true, if_false] at h
      cases requested with
      | none =>
        obtain rfl := Option.some.inj h
        omega
      | some n =>
        have hn := hpos n rfl
        dsimp only at h
        split_ifs at h with hlarge
        · obtain rfl := Option.some.inj h
          omega
        · obtain rfl := Option.some.inj h
          omega

theorem muxPortLimit_of_effective {mux : MuxService} {limit : Option Int}
    (h : effectiveMuxMaxPorts cfg mux = .ok limit) : (muxPortLimit cfg mux).1 = limit := by
  have hwarning : ∃ warning, gkeMaxPortsWarning cfg mux = .ok warning := by
    unfold gkeMaxPortsWarning
    unfold effectiveMuxMaxPorts at h
    cases hrequested : requestedMaxPorts cfg mux with
    | error e => simp [hrequested, Except.map] at h
    | ok requested =>
      split_ifs
      · exact ⟨_, rfl⟩
      · exact ⟨_, rfl⟩
  obtain ⟨warning, hwarning⟩ := hwarning
  rw [muxPortLimit, hwarning, h]

/-! ## Counting ports -/

/-- How many ports a reported channel has on the mux. -/
def reportedPortCount (report : Channel × Outcome) : ℕ :=
  match report.2 with
  | .accepted _ => channelDeclaredPortCount report.1
  | .rejected _ => 0

def acceptedPortCount (reports : List (Channel × Outcome)) : ℕ :=
  (reports.map reportedPortCount).sum

section Counting

variable {input : PassInput} {s : LoopState} {reports : List (Channel × Outcome)}

theorem length_acceptedMuxPorts (h : Collected cfg reports s) :
    (acceptedMuxPorts cfg reports).length = acceptedPortCount reports := by
  rw [acceptedMuxPorts, List.length_flatMap, acceptedPortCount]
  refine congrArg List.sum (List.map_congr_left ?_)
  rintro ⟨c, outcome⟩ hreport
  cases outcome with
  | rejected rejection => rfl
  | accepted resolved =>
    obtain ⟨muxState, hresolve⟩ := h.resolved c resolved hreport
    have hlength := congrArg List.length (ports_of_processChannelPorts hresolve).1
    simpa [reportedMuxPorts, reportedPortCount, channelDeclaredPortCount] using hlength

theorem ports_eq_toFinset (h : Collected cfg reports s) :
    s.ports = (acceptedMuxPorts cfg reports).toFinset := by
  ext m
  rw [h.ports, List.mem_toFinset]

/-- There are no more mux ports than ports of accepted channels. -/
theorem card_ports_le (h : Collected cfg reports s) : s.ports.card ≤ acceptedPortCount reports := by
  rw [ports_eq_toFinset h, ← length_acceptedMuxPorts h]
  exact List.toFinset_card_le _

theorem card_ports_le_limit {start : PassStart} {m : Int} {cs : List Channel} (hm : 0 ≤ m)
    (hmax : start.maxPorts = some m) (hempty : start.loop.ports = ∅) {muxKey : String × String}
    (h : Loop.run (channelStep cfg muxKey start.maxPorts) cs start.loop = .ok (s, reports)) :
    (s.ports.card : Int) ≤ m := by
  refine Loop.run_invariant (fun s => (s.ports.card : Int) ≤ m) (by simpa [hempty] using hm) ?_ h
  intro s c s' outcome _ hs hstep
  obtain ⟨-, ⟨rejection, rfl⟩, hports, -, -⟩ | ⟨resolved, -, rfl, -⟩ := channelStep_cases hstep
  · rw [hports]
    exact hs
  · have hturn := acceptedTurn_of_step hstep
    have hlength := congrArg List.length (ports_of_processChannelPorts hturn.resolves).1
    have hfits := hturn.fits
    rw [hmax, wouldExceedMuxPortLimit, decide_eq_false_iff_not, channelDeclaredPortCount,
      ← hlength, List.length_map] at hfits
    have hunion := Finset.card_union_le s.ports (muxPortsOf cfg c resolved)
    have hnew : (muxPortsOf cfg c resolved).card ≤ resolved.length :=
      (List.toFinset_card_le _).trans_eq (List.length_map _)
    rw [hturn.ports]
    omega

end Counting

/-- The mux never gets more ports than its limit allows, and a channel that is skipped for the limit
would have exceeded it: its declared ports and those of the channels accepted before it. The ports of
these are all distinct where the names are and the digest does not collide. -/
theorem port_limit_kept (cfg : Config) (input : PassInput) (m : Int)
    (hmax : effectiveMuxMaxPorts cfg input.mux = .ok (some m)) :
    (∀ r, muxPass cfg input = .ok r → (r.muxPorts.card : Int) ≤ m ∧
      (isGkeLoadBalancerService input.mux = true → r.muxPorts.card ≤ 100)) ∧
    (∀ s before c message after,
      PassReaches cfg input s (before ++ (c, .rejected (.portLimit message)) :: after) →
        m < channelDeclaredPortCount c + acceptedPortCount before) ∧
    ((input.channels.map Channel.key).Nodup →
      (∀ c ∈ input.channels, (c.ports.map (·.name)).Nodup) →
      DigestInjectiveOn cfg input.channels →
      ∀ s reports, PassReaches cfg input s reports → s.ports.card = acceptedPortCount reports) := by
  obtain ⟨hpos, hgke⟩ := effectiveMuxMaxPorts_bounds hmax
  refine ⟨fun r hpass => ?_, fun s before c message after hreach => ?_,
    fun hdistinct hnames hdigest s reports hreach => ?_⟩
  · obtain ⟨start, hstart, hrun, hmux, -⟩ := muxPass_eq_ok hpass
    obtain ⟨e, he⟩ := started_of_passStart hstart
    have hlimit : start.maxPorts = some m := he.maxPorts.trans (muxPortLimit_of_effective hmax)
    have hfinal := card_ports_le_limit (by omega) hlimit (by rw [he.loop]) hrun
    have hcard : (r.muxPorts.card : Int) ≤ m := by
      rw [hmux, buildMuxPorts]
      split_ifs
      · -- The placeholder is one port.
        simpa using hpos
      · have hfilter := Finset.card_filter_le r.final.ports fun p => p.name ≠ "placeholder"
        omega
    refine ⟨hcard, fun hservice => ?_⟩
    have := hgke hservice
    omega
  · obtain ⟨start, front, back, hstart, hchannels, hrun⟩ := hreach
    obtain ⟨e, he⟩ := started_of_passStart hstart
    obtain ⟨rest, s', s'', hfront, hbefore, hstep⟩ := Loop.exists_step_of_log hrun
    have hreached : PassReaches cfg input s' before :=
      ⟨start, before.map Prod.fst, c :: rest ++ back, hstart, by
        rw [hchannels, hfront]
        simp, hbefore⟩
    have hcard := card_ports_le (collected_of_reaches hreached)
    -- Only the first branch of the step reports the limit.
    have hexceed : wouldExceedMuxPortLimit s'.ports c start.maxPorts = true := by
      by_contra hfits
      unfold channelStep at hstep
      rw [if_neg hfits] at hstep
      dsimp only at hstep
      split at hstep
      · simp at hstep
      split_ifs at hstep
      · simp at hstep
      · split at hstep <;> simp at hstep
    rw [he.maxPorts, muxPortLimit_of_effective hmax, wouldExceedMuxPortLimit,
      decide_eq_true_eq] at hexceed
    omega
  · have hcollected := collected_of_reaches hreach
    rw [ports_eq_toFinset hcollected, ← length_acceptedMuxPorts hcollected]
    exact List.toFinset_card_of_nodup (nodup_acceptedMuxPorts hdistinct hnames hdigest hreach)

/-- Of two channels a mux with a limit of one port serves the first. -/
def singlePortPass : PassInput where
  mux := sampleMux [("svc-mux.nowake.ai/max-ports", "1")] [("placeholder", 101)]
  channels := [sampleChannel "web" "http" 80 [], sampleChannel "api" "http" 81 []]
  configmap := none
  order := sampleOrder

theorem port_limit_kept_singlePortPass :
    ∃ r message, muxPass sampleConfig singlePortPass = .ok r ∧ (r.muxPorts.card : Int) ≤ 1 ∧
      r.reports.map Prod.snd = [.accepted [⟨⟨some "http", 81, some "TCP"⟩, 81⟩],
        .rejected (.portLimit message)] := by
  obtain ⟨r, hr, hreports⟩ : ∃ r, muxPass sampleConfig singlePortPass = .ok r ∧
      r.reports.map Prod.snd = [.accepted [⟨⟨some "http", 81, some "TCP"⟩, 81⟩],
        .rejected (.portLimit ("mux default/mux is limited to 1 port(s); skipping channel would " ++
          "exceed the GKE Service LoadBalancer port limit"))] := by
    decide +kernel
  obtain ⟨hlimit, -, -⟩ := port_limit_kept sampleConfig singlePortPass 1 (by decide +kernel)
  exact ⟨r, _, hr, (hlimit r hr).1, hreports⟩

end SvcLbMux
