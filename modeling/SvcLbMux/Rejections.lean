import SvcLbMux.Incumbents

namespace SvcLbMux

open Py

namespace MuxState

variable {cfg : Config} {st : MuxState} {c : Channel} {explicitPorts : Dict String PortRequest}

/-- The port that `allocate` would claim anew. -/
def freshPort (cfg : Config) (st : MuxState) (ref : PortAllocationRef) : Option Int :=
  match st.reusablePort cfg ref with
  | some _ => none
  | none =>
    match st.nextAvailablePort ref.protocol (refOwner cfg ref) with
    | .error _ => none
    | .ok port => some port

/-- On the way through its ports the channel gets one allocated anew: the `auto` ports before it keep
the ports that they have. -/
def FreshAmong (cfg : Config) (st : MuxState) (c : Channel) (explicitPorts : Dict String PortRequest)
    (ports : List ServicePort) : Prop :=
  ∃ before p after, ports = before ++ p :: after ∧ explicitPorts.get p.portName = some .auto ∧
    (∃ n, st.freshPort cfg (.fromChannelPort c p) = some n) ∧
    ∀ q ∈ before, explicitPorts.get q.portName = some .auto →
      ∃ n, st.reusablePort cfg (.fromChannelPort c q) = some n

/-- The channel is valid and gets a port allocated anew. -/
def AllocatesAfresh (cfg : Config) (st : MuxState) (c : Channel) : Prop :=
  ∃ explicitPorts, channelPortClaims cfg c = .ok explicitPorts ∧
    FreshAmong cfg st c explicitPorts c.ports

/-! ## One port -/

theorem allocate_of_freshPort_eq_none {p : ServicePort}
    (h : st.freshPort cfg (.fromChannelPort c p) = none) :
    (allocate cfg c p st).2 = st ∧ ∀ n, (allocate cfg c p st).1 = .ok n →
      ∃ m, st.reusablePort cfg (.fromChannelPort c p) = some m := by
  unfold freshPort at h
  unfold allocate
  split_ifs
  · simp
  · dsimp only
    cases hreuse : st.reusablePort cfg (.fromChannelPort c p) with
    | some m => simp
    | none =>
      rw [hreuse] at h
      dsimp only at h ⊢
      revert h
      cases st.nextAvailablePort (PortAllocationRef.fromChannelPort c p).protocol
          (refOwner cfg (.fromChannelPort c p)) with
      | error e => simp
      | ok n => simp

theorem allocate_of_freshPort {p : ServicePort} {n : Int}
    (h : st.freshPort cfg (.fromChannelPort c p) = some n) :
    allocate cfg c p st = (.ok n, st.setClaim (.fromChannelPort c p) p.port n autoPort) ∧
      (n, p.protocolOrTcp) ∉ st.usedPortProtocols (c.owner cfg p) := by
  unfold freshPort at h
  cases hreuse : st.reusablePort cfg (.fromChannelPort c p) with
  | some m =>
    rw [hreuse] at h
    cases h
  | none =>
    rw [hreuse] at h
    dsimp only at h
    split at h
    · cases h
    · rename_i port hnext
      obtain rfl := Option.some.inj h
      obtain ⟨hin, hfree⟩ := nextAvailablePort_eq_ok hnext
      rw [refOwner_fromChannelPort] at hfree
      refine ⟨?_, hfree⟩
      unfold allocate
      simp [ranges_ne_nil_of_containsPort hin, hreuse, hnext]

theorem get_claims_ne_of_freshPort {p : ServicePort} {n : Int}
    (h : st.freshPort cfg (.fromChannelPort c p) = some n) :
    (allocate cfg c p st).2.claims.get (c.claimKey p) ≠ st.claims.get (c.claimKey p) := by
  obtain ⟨hallocate, hfree⟩ := allocate_of_freshPort h
  rw [hallocate, get_claims_setClaim, Channel.claimKey, if_pos rfl]
  intro hold
  exact hfree (mem_usedPortProtocols.mpr
    (Or.inr (Or.inr ⟨_, _, hold.symm, listener_ofRef _ _ _ _⟩)))

/-! ## The ports of a channel -/

theorem snd_resolveDeclaredPorts_cons (c : Channel) (explicitPorts : Dict String PortRequest)
    (p : ServicePort) (ports : List ServicePort) (st : MuxState) :
    (resolveDeclaredPorts (allocate cfg) c explicitPorts (p :: ports) st).2 =
      match (resolveChannelExternalPort (some (allocate cfg)) c explicitPorts p st).1 with
      | .error _ => (resolveChannelExternalPort (some (allocate cfg)) c explicitPorts p st).2
      | .ok _ => (resolveDeclaredPorts (allocate cfg) c explicitPorts ports
          (resolveChannelExternalPort (some (allocate cfg)) c explicitPorts p st).2).2 := by
  rw [resolveDeclaredPorts]
  rcases resolveChannelExternalPort (some (allocate cfg)) c explicitPorts p st with ⟨e | n, st'⟩
  · rfl
  · dsimp only
    rcases resolveDeclaredPorts (allocate cfg) c explicitPorts ports st' with ⟨e | ns, st''⟩
    · rfl
    · rfl

theorem get_claims_resolveDeclaredPorts_ne {key : String} {ports : List ServicePort}
    (hrange : PortNumbersInRange explicitPorts) (hkey : ∀ p ∈ ports, c.claimKey p ≠ key) :
    (resolveDeclaredPorts (allocate cfg) c explicitPorts ports st).2.claims.get key =
      st.claims.get key := by
  induction ports generalizing st with
  | nil => rfl
  | cons p ports ih =>
    have hone :
        (resolveChannelExternalPort (some (allocate cfg)) c explicitPorts p st).2.claims.get key =
        st.claims.get key := by
      by_cases hauto : explicitPorts.get p.portName = some .auto
      · rw [resolveChannelExternalPort_auto hauto]
        exact get_claims_allocate_ne c p (hkey p (by simp))
      · rw [(resolveChannelExternalPort_static _ c st hrange hauto).1]
    rw [snd_resolveDeclaredPorts_cons]
    split
    · exact hone
    · exact (ih fun q hq => hkey q (List.mem_cons_of_mem _ hq)).trans hone

theorem resolveDeclaredPorts_unchanged_or (hrange : PortNumbersInRange explicitPorts)
    (ports : List ServicePort) (st : MuxState) :
    (resolveDeclaredPorts (allocate cfg) c explicitPorts ports st).2 = st ∨
      FreshAmong cfg st c explicitPorts ports := by
  induction ports with
  | nil => exact Or.inl rfl
  | cons p ports ih =>
    -- A port that changes nothing and does not fail leaves the question to the ports after it.
    have hskip : (resolveChannelExternalPort (some (allocate cfg)) c explicitPorts p st).2 = st →
        ((∃ n, (resolveChannelExternalPort (some (allocate cfg)) c explicitPorts p st).1 = .ok n) →
          explicitPorts.get p.portName = some .auto →
          ∃ n, st.reusablePort cfg (.fromChannelPort c p) = some n) →
        (resolveDeclaredPorts (allocate cfg) c explicitPorts (p :: ports) st).2 = st ∨
          FreshAmong cfg st c explicitPorts (p :: ports) := by
      intro hsame hreuse
      rw [snd_resolveDeclaredPorts_cons]
      split
      · exact Or.inl hsame
      · rename_i n hn
        rw [hsame]
        rcases ih with ih | ⟨before, q, after, rfl, hauto, hfresh, hbefore⟩
        · exact Or.inl ih
        · refine Or.inr ⟨p :: before, q, after, rfl, hauto, hfresh, fun q' hq' => ?_⟩
          rcases List.mem_cons.mp hq' with rfl | hq'
          · exact hreuse ⟨n, hn⟩
          · exact hbefore q' hq'
    by_cases hauto : explicitPorts.get p.portName = some .auto
    · cases hfresh : st.freshPort cfg (.fromChannelPort c p) with
      | some n => exact Or.inr ⟨[], p, ports, rfl, hauto, ⟨n, hfresh⟩, by simp⟩
      | none =>
        obtain ⟨hsame, hok⟩ := allocate_of_freshPort_eq_none hfresh
        rw [resolveChannelExternalPort_auto hauto] at hskip
        refine hskip hsame ?_
        rintro ⟨n, hn⟩ -
        exact hok n hn
    · exact hskip (resolveChannelExternalPort_static _ c st hrange hauto).1 fun _ h => absurd h hauto

/-- Ports that get their own claims again, or are asked for by number, are resolved without a trace. -/
theorem snd_resolveDeclaredPorts_append (hc : c.Admitted)
    (hclaims : channelPortClaims cfg c = .ok explicitPorts) {before : List ServicePort}
    (hsub : before ⊆ c.ports)
    (hreuse : ∀ q ∈ before, explicitPorts.get q.portName = some .auto →
      ∃ n, st.reusablePort cfg (.fromChannelPort c q) = some n) (rest : List ServicePort) :
    (resolveDeclaredPorts (allocate cfg) c explicitPorts (before ++ rest) st).2 =
      (resolveDeclaredPorts (allocate cfg) c explicitPorts rest st).2 := by
  induction before with
  | nil => rfl
  | cons q before ih =>
    have hone : ∃ n, resolveChannelExternalPort (some (allocate cfg)) c explicitPorts q st =
        (.ok n, st) := by
      by_cases hq : explicitPorts.get q.portName = some .auto
      · obtain ⟨n, hn⟩ := hreuse q (by simp) hq
        exact ⟨n, by rw [resolveChannelExternalPort_auto hq, allocate_of_reusablePort hn]⟩
      · obtain ⟨hsame, hok⟩ := resolveChannelExternalPort_static (some (allocate cfg)) c st
          (channelPortClaims_eq_ok hclaims).1 hq
        have hin := requestedPort_inRange hclaims hc (hsub (by simp : q ∈ q :: before))
        exact ⟨_, Prod.ext ((hok _).mpr ⟨rfl, hin⟩) hsame⟩
    obtain ⟨n, hn⟩ := hone
    rw [List.cons_append, snd_resolveDeclaredPorts_cons, hn]
    exact ih (fun x hx => hsub (List.mem_cons_of_mem _ hx))
      fun x hx => hreuse x (List.mem_cons_of_mem _ hx)

theorem get_claims_resolveDeclaredPorts_ne_of_fresh (hc : c.Admitted)
    (hclaims : channelPortClaims cfg c = .ok explicitPorts)
    (hfresh : FreshAmong cfg st c explicitPorts c.ports) :
    ∃ p ∈ c.ports,
      (resolveDeclaredPorts (allocate cfg) c explicitPorts c.ports st).2.claims.get (c.claimKey p) ≠
        st.claims.get (c.claimKey p) := by
  obtain ⟨before, p, after, hports, hauto, ⟨n, hn⟩, hbefore⟩ := hfresh
  obtain ⟨hrange, hnamed⟩ := channelPortClaims_eq_ok hclaims
  have hsub : before ⊆ c.ports := hports ▸ List.subset_append_left _ _
  -- The ports after it have other claims.
  have hafter : ∀ q ∈ after, c.claimKey q ≠ c.claimKey p := by
    have hnodup := nodup_ports_of_admitted hc
    rw [hports, List.nodup_append] at hnodup
    intro q hq
    refine claimKey_ne_of_ne hc ?_ ?_ (hnamed q ?_) ?_
    · rw [hports]
      simp [hq]
    · rw [hports]
      simp
    · rw [hports]
      simp [hq]
    · rintro rfl
      exact (List.nodup_cons.mp hnodup.2.1).1 hq
  have hne := get_claims_ne_of_freshPort hn
  rw [(allocate_of_freshPort hn).1] at hne
  refine ⟨p, by simp [hports], ?_⟩
  rw [hports, snd_resolveDeclaredPorts_append hc hclaims hsub hbefore,
    snd_resolveDeclaredPorts_cons, resolveChannelExternalPort_auto hauto,
    (allocate_of_freshPort hn).1]
  dsimp only
  rw [get_claims_resolveDeclaredPorts_ne hrange hafter]
  exact hne

theorem resolve_unchanged_of_not_afresh (h : ¬ AllocatesAfresh cfg st c) :
    (resolveChannelPorts cfg (allocate cfg) c st).2 = st := by
  unfold resolveChannelPorts
  cases hclaims : channelPortClaims cfg c with
  | error e => rfl
  | ok explicitPorts =>
    rcases resolveDeclaredPorts_unchanged_or (channelPortClaims_eq_ok hclaims).1 c.ports st with
      hsame | hfresh
    · exact hsame
    · exact absurd ⟨explicitPorts, hclaims, hfresh⟩ h

theorem exists_changed_of_afresh (hc : c.Admitted) (h : AllocatesAfresh cfg st c) :
    ∃ p ∈ c.ports, (resolveChannelPorts cfg (allocate cfg) c st).2.claims.get (c.claimKey p) ≠
      st.claims.get (c.claimKey p) := by
  obtain ⟨explicitPorts, hclaims, hfresh⟩ := h
  rw [resolveChannelPorts, hclaims]
  exact get_claims_resolveDeclaredPorts_ne_of_fresh hc hclaims hfresh

end MuxState

/-! ## The claims of a whole pass -/

section Pass

variable {cfg : Config} {input : AdmittedPass} {r : PassResult} {start : PassStart} {c : Channel}

/-- The claims at the end of a pass are those that it started with, which are the loaded ones of the
ports that are still declared, but for one new claim for each port of each accepted channel. -/
structure OnlyAcceptedClaim (cfg : Config) (start : PassStart) (r : PassResult) : Prop where
  accepted : ∀ c resolved, (c, Outcome.accepted resolved) ∈ r.reports → ∀ p ∈ resolved,
    r.final.muxState.claims.get (c.claimKey p.port) = some (MuxState.recordedClaim cfg c p)
  kept : ∀ key, (∀ c resolved, (c, Outcome.accepted resolved) ∈ r.reports → ∀ p ∈ resolved,
      c.claimKey p.port ≠ key) →
    r.final.muxState.claims.get key = start.loop.muxState.claims.get key

theorem get_claims_turn (hpass : muxPass cfg input.toPassInput = .ok r)
    (hstart : passStart cfg input.toPassInput = .ok start) (hc : c ∈ input.channels)
    {p : ServicePort} (hp : p ∈ c.ports) {s : LoopState}
    (hmeets : PassMeets cfg input.toPassInput c s) :
    ∃ s' outcome, channelStep cfg (input.mux.namespace_, input.mux.name)
        (muxPortLimit cfg input.mux).1 s c = .ok (s', outcome) ∧ (c, outcome) ∈ r.reports ∧
      s.muxState.claims.get (c.claimKey p) = start.loop.muxState.claims.get (c.claimKey p) ∧
      r.final.muxState.claims.get (c.claimKey p) = s'.muxState.claims.get (c.claimKey p) := by
  obtain ⟨hrun, -⟩ := muxPass_from_start hpass hstart
  have hturn := turn_of_meets hstart hmeets
  obtain ⟨e, he⟩ := started_of_passStart hstart
  rw [he.maxPorts] at hrun hturn
  refine Loop.turn_frame (fun s => s.muxState.claims.get (c.claimKey p))
    (List.Nodup.of_map _ input.nodup_sortChannels) ?_ hrun hturn
  intro s d s' outcome hd hne hstep
  exact get_claims_channelStep_ne
    (fun q _ => input.claimKey_ne hc (mem_sortChannels.mp hd) hne hp) hstep

theorem claimKey_ne_of_rejected (hpass : muxPass cfg input.toPassInput = .ok r)
    {rejection : Rejection} (hreport : (c, Outcome.rejected rejection) ∈ r.reports) {p : ServicePort}
    (hp : p ∈ c.ports) (d : Channel) (resolved : List ResolvedPort)
    (haccepted : (d, Outcome.accepted resolved) ∈ r.reports) (q : ResolvedPort) (_ : q ∈ resolved) :
    d.claimKey q.port ≠ c.claimKey p := by
  intro hkey
  have hc := input.mem_channels_of_mem_reports hpass hreport
  have hd := input.mem_channels_of_mem_reports hpass haccepted
  obtain rfl := input.eq_of_key_eq hd hc (eq_of_claimKey_eq (input.admitted c hc) hp hkey).1
  cases input.eq_of_mem_reports hpass hreport haccepted

theorem accepted_claims (hpass : muxPass cfg input.toPassInput = .ok r) {resolved : List ResolvedPort}
    (haccepted : (c, Outcome.accepted resolved) ∈ r.reports) {p : ResolvedPort} (hp : p ∈ resolved) :
    r.final.muxState.claims.get (c.claimKey p.port) = some (MuxState.recordedClaim cfg c p) := by
  have hc := input.mem_channels_of_mem_reports hpass haccepted
  obtain ⟨start, hstart, -⟩ := muxPass_eq_ok hpass
  obtain ⟨s, s₁, hmeets, hstep⟩ := input.exists_step hpass haccepted
  obtain ⟨hs, -⟩ := sound_of_meets hstart hmeets
  obtain ⟨hport, hrecorded⟩ :=
    recorded_of_accepted (input.admitted c hc) hs.wellKeyed hs.ranges hstep hp
  obtain ⟨s₂, outcome, hstep', -, -, hfinal⟩ := get_claims_turn hpass hstart hc hport hmeets
  obtain ⟨rfl, -⟩ := Prod.mk.inj (Except.ok.inj (hstep.symm.trans hstep'))
  exact hfinal.trans hrecorded

end Pass

/-- A pass changes the claims for its accepted channels only, exactly when no channel that fits the
limit and is rejected all the same gets a port allocated anew before that. -/
theorem only_accepted_claim_iff (cfg : Config) (input : AdmittedPass) (start : PassStart)
    (r : PassResult) (hstart : passStart cfg input.toPassInput = .ok start)
    (hpass : muxPass cfg input.toPassInput = .ok r) :
    OnlyAcceptedClaim cfg start r ↔
      ∀ c ∈ input.channels, ∀ s, PassMeets cfg input.toPassInput c s →
        TurnedAway cfg (muxPortLimit cfg input.mux).1 s c →
        wouldExceedMuxPortLimit s.ports c (muxPortLimit cfg input.mux).1 = false →
        ¬ MuxState.AllocatesAfresh cfg s.muxState c := by
  constructor
  · -- A port allocated anew changes its claim in this turn, and no later turn changes it back.
    intro honly c hc s hmeets haway hfits hfresh
    obtain ⟨p, hp, hchanged⟩ := MuxState.exists_changed_of_afresh (input.admitted c hc) hfresh
    obtain ⟨s', outcome, hstep, hreport, hbefore, hfinal⟩ := get_claims_turn hpass hstart hc hp hmeets
    obtain ⟨-, ⟨rejection, rfl⟩, -, -, hstate⟩ | ⟨resolved, hstays, -⟩ := channelStep_cases hstep
    · rw [hfits] at hstate
      rw [hstate] at hfinal
      have hkept := honly.kept _ (claimKey_ne_of_rejected hpass hreport hp)
      exact hchanged (hfinal.symm.trans (hkept.trans hbefore.symm))
    · exact hstays haway
  · intro hcondition
    refine ⟨fun c resolved haccepted p hp => accepted_claims hpass haccepted hp, fun key hother => ?_⟩
    -- Only the turn of the channel that declares a port can change the claim of that port.
    by_cases hdeclared : ∃ c ∈ input.channels, ∃ p ∈ c.ports, c.claimKey p = key
    · obtain ⟨c, hc, p, hp, rfl⟩ := hdeclared
      obtain ⟨s, -, hmeets, -⟩ := input.exists_meets hpass hc
      obtain ⟨s', outcome, hstep, hreport, hbefore, hfinal⟩ :=
        get_claims_turn hpass hstart hc hp hmeets
      rw [hfinal, ← hbefore]
      obtain ⟨haway, -, -, -, hstate⟩ | ⟨resolved, -, rfl, hresolve, -⟩ := channelStep_cases hstep
      · rw [hstate]
        split_ifs with hexceed
        · rfl
        · rw [show (processChannelPorts cfg c s.muxState).2 = s.muxState from
            MuxState.resolve_unchanged_of_not_afresh
              (hcondition c hc s hmeets haway (Bool.eq_false_iff.mpr hexceed))]
      · -- An accepted channel has a claim for every port.
        obtain ⟨hs, -⟩ := sound_of_meets hstart hmeets
        obtain ⟨-, -, hports, -⟩ := accepted_spec (input.admitted c hc) hs.wellKeyed hs.ranges hstep
        rw [← hports] at hp
        obtain ⟨q, hq, rfl⟩ := List.mem_map.mp hp
        exact absurd rfl (hother c resolved hreport q hq)
    · push Not at hdeclared
      obtain ⟨hrun, -⟩ := muxPass_from_start hpass hstart
      exact Loop.run_invariant
        (fun s => s.muxState.claims.get key = start.loop.muxState.claims.get key) rfl
        (fun s c s' outcome hc hs hstep => (get_claims_channelStep_ne
          (fun p hp => hdeclared c (mem_sortChannels.mp hc) p hp) hstep).trans hs) hrun

theorem only_accepted_claim_contestedPass :
    ∃ start r, passStart sampleConfig contestedPass.toPassInput = .ok start ∧
      muxPass sampleConfig contestedPass.toPassInput = .ok r ∧
      OnlyAcceptedClaim sampleConfig start r := by
  obtain ⟨r, hpass, -⟩ : ∃ r, muxPass sampleConfig contestedPass.toPassInput = .ok r ∧ True := by
    decide +kernel
  obtain ⟨start, hstart, -⟩ := muxPass_eq_ok hpass
  refine ⟨start, r, hstart, hpass, (only_accepted_claim_iff sampleConfig contestedPass start r hstart
    hpass).mpr ?_⟩
  rintro c hc s - - - ⟨explicitPorts, hclaims, before, p, after, -, hauto, -⟩
  have hnone : ∀ c ∈ contestedPass.channels, channelPortClaims sampleConfig c = .ok Dict.empty := by
    decide +kernel
  obtain rfl := Except.ok.inj ((hnone c hc).symm.trans hclaims)
  simp at hauto

/-- The channel `web` wants one port allocated and, after it, a port that `api` has. -/
def conflictedWeb : Channel where
  namespace_ := "default"
  name := "web"
  annotations := Dict.ofList [("svc-mux.nowake.ai/external-ports", "http:auto")]
  ports := [⟨some "http", 81, some "TCP"⟩, ⟨some "web", 80, some "TCP"⟩]

def conflictedPass : AdmittedPass where
  mux := sampleMux [("svc-mux.nowake.ai/port-range", "9000-9001")] [("placeholder", 101)]
  channels := [conflictedWeb, sampleChannel "api" "http" 80 []]
  configmap := none
  order := sampleOrder
  admitted := by decide +kernel
  distinct := by decide +kernel

/-- The channel is rejected, and its allocation is persisted. -/
theorem rejected_channel_claims_conflictedPass :
    ∃ r, muxPass sampleConfig conflictedPass.toPassInput = .ok r ∧
      (conflictedWeb, Outcome.rejected (.portConflict
        [⟨⟨some "http", 81, some "TCP"⟩, 9000⟩, ⟨⟨some "web", 80, some "TCP"⟩, 80⟩]
        ["80/TCP is already claimed by default/api:64bbd5a"])) ∈ r.reports ∧
      sampleClaim "web" 81 9000 "auto" ∈ storedClaims r.configmap ∧
      ∃ start, passStart sampleConfig conflictedPass.toPassInput = .ok start ∧
        ¬ OnlyAcceptedClaim sampleConfig start r := by
  obtain ⟨r, hpass, hreport, hstored, start, hstart, hchanged⟩ :
      ∃ r, muxPass sampleConfig conflictedPass.toPassInput = .ok r ∧
        ((conflictedWeb, Outcome.rejected (.portConflict
          [⟨⟨some "http", 81, some "TCP"⟩, 9000⟩, ⟨⟨some "web", 80, some "TCP"⟩, 80⟩]
          ["80/TCP is already claimed by default/api:64bbd5a"])) ∈ r.reports ∧
        sampleClaim "web" 81 9000 "auto" ∈ storedClaims r.configmap ∧
        ∃ start, passStart sampleConfig conflictedPass.toPassInput = .ok start ∧
          r.final.muxState.claims.get (conflictedWeb.claimKey ⟨some "http", 81, some "TCP"⟩) ≠
            start.loop.muxState.claims.get
              (conflictedWeb.claimKey ⟨some "http", 81, some "TCP"⟩)) := by decide +kernel
  refine ⟨r, hpass, hreport, hstored, start, hstart, fun honly => hchanged ?_⟩
  exact honly.kept _ (claimKey_ne_of_rejected hpass hreport (by simp [conflictedWeb]))

end SvcLbMux
