import SvcLbMux.Writes

namespace SvcLbMux

open Py

variable {cfg : Config}

/-! ## Channels but for their `ports` annotation -/

/-- The channels differ in their `ports` annotation at most. -/
structure SameSpec (cfg : Config) (c d : Channel) : Prop where
  key : d.key = c.key
  ports : d.ports = c.ports
  annotations : ∀ key, key ≠ cfg.annotationPorts → d.annotations.get key = c.annotations.get key

theorem sameSpec_refl (c : Channel) : SameSpec cfg c c := ⟨rfl, rfl, fun _ _ => rfl⟩

theorem sameSpec_patchedChannel {c d : Channel} (h : SameSpec cfg c d) (key : String × String)
    (text : String) : SameSpec cfg c (patchedChannel cfg key text d) := by
  unfold patchedChannel
  split_ifs
  · refine ⟨h.key, h.ports, fun key hkey => ?_⟩
    rw [← h.annotations key hkey]
    exact Dict.get_set_ne _ (Ne.symm hkey) _
  · exact h

theorem channelPortClaims_of_sameSpec {c d : Channel} (h : SameSpec cfg c d) :
    channelPortClaims cfg d = channelPortClaims cfg c := by
  have htext : d.annotation cfg.annotationExternalPorts = c.annotation cfg.annotationExternalPorts := by
    rw [Channel.annotation, Channel.annotation,
      h.annotations _ (Ne.symm (annotationExternalPorts_ne cfg))]
  unfold channelPortClaims validateDeclaredPortNames
  rw [htext, h.ports]

theorem staticallyRequests_of_sameSpec {c d : Channel} (h : SameSpec cfg c d) (key : PortKey) :
    StaticallyRequests cfg d key ↔ StaticallyRequests cfg c key := by
  unfold StaticallyRequests
  rw [channelPortClaims_of_sameSpec h, h.ports]

/-! ## What a part of the requests leaves -/

/-- At its turns in a pass the channel is accepted at the ports that its annotation shows, or not at
all. -/
def Quiet (cfg : Config) (input : PassInput) (c : Channel) : Prop :=
  ∀ t t' resolved, PassMeets cfg input c t →
    channelStep cfg (input.mux.namespace_, input.mux.name) (muxPortLimit cfg input.mux).1 t c =
      .ok (t', .accepted resolved) →
    c.annotations.get cfg.annotationPorts = some (portsAnnotationOf resolved)

structure Interrupted (cfg : Config) (input next : PassInput) : Prop where
  store : muxStore cfg next.mux = muxStore cfg input.mux
  ranges : muxPortRanges cfg next.mux = muxPortRanges cfg input.mux
  limit : (muxPortLimit cfg next.mux).1 = (muxPortLimit cfg input.mux).1
  muxPorts : next.mux.ports = input.mux.ports ∨
    ∃ p, muxPass cfg input = .ok p ∧ oldMuxPorts next.mux.ports = .ok p.muxPorts
  configmap : next.configmap = input.configmap ∨
    ∃ p, muxPass cfg input = .ok p ∧ next.configmap = p.configmap
  specs : ∀ d ∈ next.channels, ∃ c ∈ input.channels, SameSpec cfg c d
  kept : ∀ c ∈ input.channels, Quiet cfg input c → c ∈ next.channels

section Requests

variable {s : Surroundings} {cluster : Cluster} {done : List Request}
  (hdone : done ⊆ (iteration cfg s cluster).emitted)

include hdone

theorem applyAll_of_caused (P : Cluster → Prop) (h : P cluster)
    (hstep : ∀ current request, Caused cfg s cluster request → P current →
      P (current.apply cfg request)) : P (cluster.applyAll cfg done) := by
  refine Cluster.applyAll_invariant cfg P h fun current request hmem hcurrent => ?_
  cases hwrites : request.writes with
  | true => exact hstep current request (caused_of_mem hwrites (hdone hmem)).2 hcurrent
  | false =>
    cases request with
    | event => exact hcurrent
    | _ => cases hwrites

theorem settings_of_requests : ∀ key ∈ settingsKeys cfg,
    (cluster.applyAll cfg done).mux.annotations.get key = cluster.mux.annotations.get key := by
  refine applyAll_of_caused hdone (fun current => ∀ key ∈ settingsKeys cfg,
    current.mux.annotations.get key = cluster.mux.annotations.get key) (fun _ _ => rfl) ?_
  intro current request hcause hcurrent key hkey
  cases hcause with
  | muxAnnotations hpass hpatch =>
    exact get_mergePatch_muxPatch hpatch (foreign_of_settings hkey) (hcurrent key hkey)
  | _ => exact hcurrent key hkey

theorem muxPorts_of_requests :
    (cluster.applyAll cfg done).mux.ports = cluster.mux.ports ∨
      ∃ p, muxPass cfg (cluster.passInput s) = .ok p ∧
        oldMuxPorts (cluster.applyAll cfg done).mux.ports = .ok p.muxPorts := by
  refine applyAll_of_caused hdone (fun current => current.mux.ports = cluster.mux.ports ∨
    ∃ p, muxPass cfg (cluster.passInput s) = .ok p ∧ oldMuxPorts current.mux.ports = .ok p.muxPorts)
    (Or.inl rfl) ?_
  intro current request hcause hcurrent
  cases hcause with
  | muxPorts hpass =>
    refine Or.inr ⟨_, hpass, (oldMuxPorts_written _).trans (congrArg _ ?_)⟩
    ext m
    rw [List.mem_toFinset, s.order.mem_toList]
  | _ => exact hcurrent

theorem configmap_of_requests :
    (cluster.applyAll cfg done).configmap = cluster.configmap ∨
      ∃ p, muxPass cfg (cluster.passInput s) = .ok p ∧
        (cluster.applyAll cfg done).configmap = p.configmap := by
  refine applyAll_of_caused hdone (fun current => current.configmap = cluster.configmap ∨
    ∃ p, muxPass cfg (cluster.passInput s) = .ok p ∧ current.configmap = p.configmap)
    (Or.inl rfl) ?_
  intro current request hcause hcurrent
  cases hcause with
  | configmap create hpass hown hsaved => exact Or.inr ⟨_, hpass, hsaved.symm⟩
  | _ => exact hcurrent

theorem specs_of_requests : ∀ d ∈ (cluster.applyAll cfg done).channels,
    ∃ c ∈ cluster.channels, SameSpec cfg c d := by
  refine applyAll_of_caused hdone (fun current => ∀ d ∈ current.channels,
    ∃ c ∈ cluster.channels, SameSpec cfg c d) (fun d hd => ⟨d, hd, sameSpec_refl d⟩) ?_
  intro current request hcause hcurrent
  cases hcause with
  | channelPorts hmeets hstep hchanged =>
    intro d hd
    obtain ⟨d', hd', rfl⟩ := List.mem_map.mp hd
    obtain ⟨c, hc, hspec⟩ := hcurrent d' hd'
    exact ⟨c, hc, sameSpec_patchedChannel hspec _ _⟩
  | _ => exact hcurrent

theorem kept_of_requests {c : Channel} (hc : c ∈ (cluster.passInput s).channels)
    (hquiet : Quiet cfg (cluster.passInput s) c) : c ∈ (cluster.applyAll cfg done).channels := by
  refine applyAll_of_caused hdone (fun current => c ∈ current.channels)
    ((s.index.perm _).mem_iff.mp hc) ?_
  intro current request hcause hcurrent
  cases hcause with
  | @channelPorts d t t' resolved hmeets hstep hchanged =>
    refine List.mem_map.mpr ⟨c, hcurrent, if_neg fun hkey => ?_⟩
    -- No other channel has this key.
    obtain rfl := (cluster.admittedPass s).eq_of_key_eq hc (mem_channels_of_meets hmeets) hkey
    exact hchanged (hquiet t t' resolved hmeets hstep)
  | _ => exact hcurrent

theorem interrupted_of_requests (s' : Surroundings) :
    Interrupted cfg (cluster.passInput s) ((cluster.applyAll cfg done).passInput s') := by
  have hmux := mux_applyAll cfg cluster done
  obtain ⟨hstore, hranges, hlimit⟩ := @settings_eq cfg cluster.mux
    (cluster.applyAll cfg done).mux (by rw [hmux]) (by rw [hmux])
    (settings_of_requests hdone)
  refine ⟨hstore, hranges, congrArg Prod.fst hlimit, muxPorts_of_requests hdone,
    configmap_of_requests hdone, fun d hd => ?_, fun c hc hquiet => ?_⟩
  · obtain ⟨c, hc, hspec⟩ := specs_of_requests hdone d ((s'.index.perm _).mem_iff.mp hd)
    exact ⟨c, (s.index.perm _).mem_iff.mpr hc, hspec⟩
  · exact (s'.index.perm _).mem_iff.mpr (kept_of_requests hdone hc hquiet)

end Requests

/-! ## Established channels survive -/

section Established

variable {input next : AdmittedPass} {c : Channel} {explicitPorts : Dict String PortRequest}
  {served : List ResolvedPort}

theorem quiet_of_established (h : Established cfg input.toPassInput c explicitPorts served) :
    Quiet cfg input.toPassInput c := by
  intro t t' resolved hmeets hstep
  have haccepted := accepted_of_secured h.servedAt (secured_at_turn h hmeets)
    (acceptedTurn_of_step hstep).fits hstep
  obtain rfl := Outcome.accepted.inj haccepted
  exact h.recorded

theorem persisted_interrupted (hready : Ready cfg input)
    (h : Established cfg input.toPassInput c explicitPorts served)
    (hnext : Interrupted cfg input.toPassInput next.toPassInput) :
    Persisted cfg next.toPassInput c served := by
  obtain hsame | ⟨p, hpass, hsaved⟩ := hnext.configmap
  · refine ⟨?_, ?_, ?_⟩
    · rw [hnext.store, hsame]
      exact h.persisted.load
    · rw [hsame]
      exact h.persisted.claimed
    · rw [hsame]
      exact h.persisted.alone
  · -- What was saved is what the pass after a whole one finds.
    obtain ⟨whole, hfollows⟩ := exists_follows hpass
    have hwhole := (established_next hready hpass hfollows h).persisted
    have hconfigmap : next.configmap = whole.configmap := hsaved.trans hfollows.configmap.symm
    refine ⟨?_, ?_, ?_⟩
    · rw [hnext.store, hconfigmap, ← hfollows.store]
      exact hwhole.load
    · rw [hconfigmap]
      exact hwhole.claimed
    · rw [hconfigmap]
      exact hwhole.alone

theorem muxPorts_interrupted (hready : Ready cfg input)
    (h : Established cfg input.toPassInput c explicitPorts served)
    (hnext : Interrupted cfg input.toPassInput next.toPassInput) :
    ∀ oldPorts, oldMuxPorts next.mux.ports = .ok oldPorts → ∀ m ∈ oldPorts, ∀ r ∈ served,
      m.key = r.key → m.name = c.muxName cfg r.port := by
  obtain hsame | ⟨p, hpass, hwritten⟩ := hnext.muxPorts
  · rw [hsame]
    exact h.muxPorts
  · obtain ⟨whole, hfollows⟩ := exists_follows hpass
    rw [hwritten, ← hfollows.muxPorts]
    exact (established_next hready hpass hfollows h).muxPorts

/-- An established channel stays established, whatever part of the requests takes effect. -/
theorem established_interrupted (hready : Ready cfg input)
    (h : Established cfg input.toPassInput c explicitPorts served)
    (hnext : Interrupted cfg input.toPassInput next.toPassInput) :
    Established cfg next.toPassInput c explicitPorts served := by
  refine ⟨⟨hnext.kept c h.mem (quiet_of_established h), h.servedAt,
    persisted_interrupted hready h hnext, ?_, muxPorts_interrupted hready h hnext, h.recorded⟩, ?_, ?_⟩
  · rw [hnext.ranges]
    exact h.inRange
  · intro r hr d hd hstatic
    obtain ⟨c', hc', hspec⟩ := hnext.specs d hd
    exact h.unrequested r hr c' hc' ((staticallyRequests_of_sameSpec hspec _).mp hstatic)
  · rw [hnext.limit]
    exact h.room

theorem ready_interrupted (hready : Ready cfg input)
    (hnext : Interrupted cfg input.toPassInput next.toPassInput) : Ready cfg next := by
  have hdigest : DigestInjectiveOn cfg next.channels := by
    intro c hc p hp d hd q hq hname
    obtain ⟨c', hc', hspec⟩ := hnext.specs c hc
    obtain ⟨d', hd', hspec'⟩ := hnext.specs d hd
    rw [muxName_of_key_eq hspec.key, muxName_of_key_eq hspec'.key] at hname
    rw [hspec.key, hspec'.key]
    exact hready.digest c' hc' p (hspec.ports ▸ hp) d' hd' q (hspec'.ports ▸ hq) hname
  obtain hsame | ⟨p, hpass, hsaved⟩ := hnext.configmap
  · refine ⟨hdigest, ?_, ?_⟩
    · rw [hnext.store, hsame]
      exact hready.load
    · rw [hsame]
      exact hready.distinct
  · obtain ⟨whole, hfollows⟩ := exists_follows hpass
    have hwhole := ready_next hready hpass hfollows
    have hconfigmap : next.configmap = whole.configmap := hsaved.trans hfollows.configmap.symm
    refine ⟨hdigest, ?_, ?_⟩
    · rw [hnext.store, hconfigmap, ← hfollows.store]
      exact hwhole.load
    · rw [hconfigmap]
      exact hwhole.distinct

end Established

/-! ## Runs -/

/-- What can happen to a cluster while nobody edits the channel or asks for its allocated ports by
their numbers. -/
inductive Step (cfg : Config) (c : Channel) (explicitPorts : Dict String PortRequest)
    (served : List ResolvedPort) : Cluster → Cluster → Prop
  /-- An iteration, of whose requests some take effect. -/
  | iteration {cluster : Cluster} {s : Surroundings} {done : List Request}
      (hdone : done ⊆ (iteration cfg s cluster).emitted) :
      Step cfg c explicitPorts served cluster (cluster.applyAll cfg done)
  /-- Channels come, go and are edited. -/
  | edit {cluster edited : Cluster}
      (others : edited = { cluster with
        channels := edited.channels
        admitted := edited.admitted
        distinct := edited.distinct })
      (digest : DigestInjectiveOn cfg edited.channels) (mem : c ∈ edited.channels)
      (unrequested : Unrequested cfg edited.channels explicitPorts served) :
      Step cfg c explicitPorts served cluster edited

/-- At every turn of an iteration, also of one that raises later, the channel is accepted at these
ports or turned away by the limit, nobody else is accepted at one of them, and the channel is not
patched. -/
structure KeepsPorts (cfg : Config) (s : Surroundings) (cluster : Cluster) (c : Channel)
    (served : List ResolvedPort) : Prop where
  mem : c ∈ cluster.channels
  own : ∀ t t' outcome, PassMeets cfg (cluster.passInput s) c t →
    channelStep cfg (cluster.mux.namespace_, cluster.mux.name) (muxPortLimit cfg cluster.mux).1 t c =
      .ok (t', outcome) →
    outcome = .accepted served ∨ ∃ message, outcome = .rejected (.portLimit message)
  others : ∀ d t t' resolved, d ≠ c → PassMeets cfg (cluster.passInput s) d t →
    channelStep cfg (cluster.mux.namespace_, cluster.mux.name) (muxPortLimit cfg cluster.mux).1 t d =
      .ok (t', .accepted resolved) →
    ∀ r ∈ served, ∀ q ∈ resolved, q.key ≠ r.key
  unpatched : ∀ text, .patchChannelPorts c.key text ∉ (iteration cfg s cluster).emitted

section Runs

variable {cluster later : Cluster} {s : Surroundings} {c : Channel}
  {explicitPorts : Dict String PortRequest} {served : List ResolvedPort}

theorem keepsPorts_of_established
    (h : Established cfg (cluster.passInput s) c explicitPorts served) :
    KeepsPorts cfg s cluster c served := by
  have hestablished : Established cfg (cluster.admittedPass s).toPassInput c explicitPorts served := h
  refine ⟨(s.index.perm _).mem_iff.mp h.mem, fun t t' outcome hmeets hstep => ?_,
    fun d t t' resolved hne hmeets hstep r hr q hq => ?_, fun text hmem => ?_⟩
  · have hsecured := secured_at_turn hestablished hmeets
    cases hfits : wouldExceedMuxPortLimit t.ports c (muxPortLimit cfg cluster.mux).1 with
    | false => exact Or.inl (accepted_of_secured h.servedAt hsecured hfits hstep)
    | true =>
      rw [channelStep, if_pos hfits] at hstep
      exact Or.inr ⟨_, (Prod.mk.inj (Except.ok.inj hstep)).2.symm⟩
  · have hsecured := secured_at_turn hestablished hmeets
    exact @key_ne_of_accepted cfg (cluster.admittedPass s) _ _ _ h.mem (mem_channels_of_meets hmeets)
      hne _ (acceptedTurn_of_step hstep).compatible _ _ (hsecured.owned r hr) hq
  · obtain ⟨-, hcause⟩ := caused_of_mem rfl hmem
    generalize hkey : c.key = key at hcause
    cases hcause with
    | channelPorts hmeets hstep hchanged =>
      obtain rfl := (cluster.admittedPass s).eq_of_key_eq h.mem (mem_channels_of_meets hmeets) hkey
      exact hchanged (quiet_of_established hestablished _ _ _ hmeets hstep)

/-- The channel is established, in whatever order the index yields the channels. -/
def Holds (cfg : Config) (c : Channel) (explicitPorts : Dict String PortRequest)
    (served : List ResolvedPort) (cluster : Cluster) : Prop :=
  ∀ s, Ready cfg (cluster.admittedPass s) ∧
    Established cfg (cluster.passInput s) c explicitPorts served

theorem established_congr {input next : PassInput} (h : Established cfg input c explicitPorts served)
    (hmux : next.mux = input.mux) (hconfigmap : next.configmap = input.configmap)
    (hmem : c ∈ next.channels) (hunrequested : Unrequested cfg next.channels explicitPorts served) :
    Established cfg next c explicitPorts served := by
  obtain ⟨mux, channels, configmap, order⟩ := next
  obtain rfl : mux = input.mux := hmux
  obtain rfl : configmap = input.configmap := hconfigmap
  exact ⟨⟨hmem, h.servedAt, ⟨h.persisted.load, h.persisted.claimed, h.persisted.alone⟩, h.inRange,
    h.muxPorts, h.recorded⟩, hunrequested, h.room⟩

theorem ready_congr {input next : AdmittedPass} (h : Ready cfg input) (hmux : next.mux = input.mux)
    (hconfigmap : next.configmap = input.configmap) (hdigest : DigestInjectiveOn cfg next.channels) :
    Ready cfg next := by
  refine ⟨hdigest, ?_, ?_⟩
  · rw [hmux, hconfigmap]
    exact h.load
  · rw [hconfigmap]
    exact h.distinct

theorem holds_step (h : Holds cfg c explicitPorts served cluster)
    (hstep : Step cfg c explicitPorts served cluster later) :
    Holds cfg c explicitPorts served later := by
  intro s'
  cases hstep with
  | @iteration s done hdone =>
    obtain ⟨hready, hestablished⟩ := h s
    have hnext : Interrupted cfg (cluster.admittedPass s).toPassInput
        ((cluster.applyAll cfg done).admittedPass s').toPassInput := interrupted_of_requests hdone s'
    exact ⟨ready_interrupted hready hnext, established_interrupted hready hestablished hnext⟩
  | edit others digest mem unrequested =>
    obtain ⟨hready, hestablished⟩ := h s'
    have hmux : later.mux = cluster.mux := by rw [others]
    have hconfigmap : later.configmap = cluster.configmap := by rw [others]
    have hmem : ∀ d, d ∈ (later.passInput s').channels → d ∈ later.channels := fun d =>
      (s'.index.perm later.channels).mem_iff.mp
    refine ⟨ready_congr hready hmux hconfigmap fun d hd p hp d' hd' =>
      digest d (hmem d hd) p hp d' (hmem d' hd'), ?_⟩
    exact established_congr hestablished hmux hconfigmap
      ((s'.index.perm later.channels).mem_iff.mpr mem)
      fun r hr d hd => unrequested r hr d (hmem d hd)

end Runs

end SvcLbMux
