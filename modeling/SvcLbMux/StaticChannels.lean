import SvcLbMux.Incumbents

namespace SvcLbMux

open Py

variable {cfg : Config}

/-- The ports that a valid channel asks for, as if none of them were allocated. -/
def staticPorts (cfg : Config) (c : Channel) : List ResolvedPort :=
  match channelPortClaims cfg c with
  | .error _ => []
  | .ok explicitPorts => c.ports.map fun p => ⟨p, requestedPort explicitPorts p⟩

/-- The channel is valid, and none of its ports is allocated. -/
def StaticOnly (cfg : Config) (c : Channel) : Prop :=
  ∃ explicitPorts, channelPortClaims cfg c = .ok explicitPorts ∧
    ∀ p ∈ c.ports, explicitPorts.get p.portName ≠ some .auto

/-- Nobody asks for a port that belongs to another one when the loop of the pass starts: by a
persisted claim or, where there is none, by what was recovered. -/
def OwnersAgree (cfg : Config) (input : PassInput) : Prop :=
  ∀ start, passStart cfg input = .ok start → ∀ c ∈ input.channels, ∀ r ∈ staticPorts cfg c,
    ∀ owner, start.loop.portOwners.get r.key = some owner → owner = c.owner cfg r.port

/-- A pass that finds this state leaves it as it was. -/
structure Fixpoint (cfg : Config) (input : PassInput) (r : PassResult) : Prop where
  configmap : r.configmap = input.configmap
  muxPorts : oldMuxPorts input.mux.ports = .ok r.muxPorts
  channels : ∀ report ∈ r.reports, channelAfter cfg report = report.1

instance (input : PassInput) (r : PassResult) : Decidable (Fixpoint cfg input r) :=
  decidable_of_iff (r.configmap = input.configmap ∧
      (∃ oldPorts, oldMuxPorts input.mux.ports = .ok oldPorts ∧ oldPorts = r.muxPorts) ∧
      ∀ report ∈ r.reports, channelAfter cfg report = report.1)
    ⟨fun ⟨hconfigmap, ⟨_, hold, heq⟩, hchannels⟩ => ⟨hconfigmap, heq ▸ hold, hchannels⟩,
      fun h => ⟨h.configmap, ⟨_, h.muxPorts, rfl⟩, h.channels⟩⟩

section Static

variable {input : AdmittedPass} {c d : Channel} {s : LoopState}

/-- A channel with static ports resolves to what it asks for, whatever the claims. -/
theorem processChannelPorts_static (hc : c.Admitted) (hstatic : StaticOnly cfg c) (st : MuxState) :
    processChannelPorts cfg c st = (.ok (staticPorts cfg c), st) := by
  obtain ⟨explicitPorts, hclaims, hauto⟩ := hstatic
  have hports : staticPorts cfg c = c.ports.map fun p => ⟨p, requestedPort explicitPorts p⟩ := by
    rw [staticPorts, hclaims]
  rw [hports]
  refine MuxState.resolve_eq_ok hclaims (by simp [Function.comp_def]) fun r hr => ?_
  obtain ⟨p, hp, rfl⟩ := List.mem_map.mp hr
  exact ⟨fun h => absurd h (hauto p hp), fun _ => ⟨rfl, requestedPort_inRange hclaims hc hp⟩⟩

/-- Whoever owns a listener at the turn of a channel owned it at the start, or asked for it before. -/
theorem owner_at_turn (hstatic : ∀ c ∈ input.channels, StaticOnly cfg c) {start : PassStart}
    {before : List Channel} (hsub : before ⊆ sortChannels input.channels)
    {log : List (Channel × Outcome)}
    (hrun : Loop.run (channelStep cfg (input.mux.namespace_, input.mux.name) start.maxPorts) before
      start.loop = .ok (s, log)) {key : PortKey} {owner : String}
    (h : (key, owner) ∈ s.registry.holds) :
    (key, owner) ∈ start.loop.registry.holds ∨
      ∃ d ∈ before, ∃ q ∈ staticPorts cfg d, q.key = key := by
  let P := fun s : LoopState => ∀ key owner, (key, owner) ∈ s.registry.holds →
    (key, owner) ∈ start.loop.registry.holds ∨ ∃ d ∈ before, ∃ q ∈ staticPorts cfg d, q.key = key
  refine (Loop.run_invariant P (fun _ _ h => Or.inl h) ?_ hrun : P s) key owner h
  intro s d s' outcome hd hs hstep key owner hholds
  obtain ⟨-, -, -, howners, -⟩ | ⟨resolved, -, -, hresolve, hcompat, -, hregistry, -⟩ :=
    channelStep_cases hstep
  · rw [LoopState.registry, howners] at hholds
    exact hs key owner hholds
  · have hmem := mem_sortChannels.mp (hsub hd)
    rw [processChannelPorts_static (input.admitted d hmem) (hstatic d hmem)] at hresolve
    obtain rfl := Except.ok.inj hresolve
    rw [hregistry, Registry.offer_of_compatible hcompat] at hholds
    rcases hholds with hholds | ⟨q, hq, heq⟩
    · exact hs key owner hholds
    · exact Or.inr ⟨d, hd, q, hq, (Prod.mk.inj heq).1.symm⟩

/-- Where all requests are distinct, a channel asks for nothing that those before it asked for, and
for nothing twice. -/
theorem keys_distinct (hdistinct : ((input.channels.flatMap (staticPorts cfg)).map
      ResolvedPort.key).Nodup) {before after : List Channel}
    (hsplit : sortChannels input.channels = before ++ c :: after) :
    ((staticPorts cfg c).map ResolvedPort.key).Nodup ∧
      ∀ d ∈ before, ∀ q ∈ staticPorts cfg d, ∀ r ∈ staticPorts cfg c, q.key ≠ r.key := by
  have hperm : (sortChannels input.channels).Perm input.channels := perm_sortBy _ _
  have hnodup := ((hperm.flatMap_right (staticPorts cfg)).map ResolvedPort.key).nodup_iff.mpr hdistinct
  rw [hsplit, List.flatMap_append, List.flatMap_cons, List.map_append, List.map_append,
    List.nodup_append, List.nodup_append] at hnodup
  refine ⟨hnodup.2.1.1, fun d hd q hq r hr => ?_⟩
  exact hnodup.2.2 _ (List.mem_map_of_mem (List.mem_flatMap.mpr ⟨d, hd, hq⟩)) _
    (List.mem_append_left _ (List.mem_map_of_mem hr))

end Static

/-- A pass without a limit over channels with static ports, all asking for different listeners,
accepts all of them exactly when nobody asks for what belongs to another port at its start. At a
fixpoint of the pass the channels that it rejects are rejected for good. -/
theorem static_channels_accepted_iff (cfg : Config) (input : AdmittedPass) (r : PassResult)
    (hpass : muxPass cfg input.toPassInput = .ok r)
    (hstatic : ∀ c ∈ input.channels, StaticOnly cfg c)
    (hdistinct : ((input.channels.flatMap (staticPorts cfg)).map ResolvedPort.key).Nodup)
    (hlimit : (muxPortLimit cfg input.mux).1 = none) :
    (∀ c ∈ input.channels, (c, Outcome.accepted (staticPorts cfg c)) ∈ r.reports) ↔
      OwnersAgree cfg input.toPassInput := by
  have hresolve : ∀ c ∈ input.channels, ∀ st,
      processChannelPorts cfg c st = (.ok (staticPorts cfg c), st) := fun c hc st =>
    processChannelPorts_static (input.admitted c hc) (hstatic c hc) st
  constructor
  · -- Accepted means compatible at its turn, when the owners of the start still hold.
    intro haccepted start hstart c hc p hp owner howner
    obtain ⟨s, s', hmeets, hstep⟩ := input.exists_step hpass (haccepted c hc)
    exact ((Registry.compatible_iff _ _).mp (acceptedTurn_of_step hstep).compatible).1
      (holds_at_turn hstart hmeets howner) ⟨p, hp, rfl⟩
  · intro hagree c hc
    obtain ⟨s, outcome, hmeets, hreport⟩ := input.exists_meets hpass hc
    obtain ⟨s', hstep⟩ := input.step_of_meets hpass hreport hmeets
    obtain ⟨start, hstart, before, after, log, hsplit, hrun⟩ := hmeets
    obtain ⟨hnodup, hbefore⟩ := keys_distinct hdistinct hsplit
    have hstays : ¬ TurnedAway cfg (muxPortLimit cfg input.mux).1 s c := by
      rw [hlimit]
      rintro (hexceed | haway)
      · cases hexceed
      refine haway _ (by rw [hresolve c hc]) ((Registry.compatible_iff _ _).mpr ⟨?_, ?_⟩)
      · -- An owner of what the channel asks for was there at the start, and agrees.
        rintro key owner owner' hholds ⟨p, hp, heq⟩
        obtain ⟨rfl, rfl⟩ := Prod.mk.inj heq
        rcases owner_at_turn hstatic (hsplit ▸ List.subset_append_left _ _) hrun hholds with
          hstartHolds | ⟨d, hd, q, hq, hkey⟩
        · exact hagree start hstart c hc p hp owner hstartHolds
        · exact absurd hkey (hbefore d hd q hq p hp)
      · rintro key owner owner' ⟨p, hp, heq⟩ ⟨p', hp', heq'⟩
        obtain ⟨rfl, rfl⟩ := Prod.mk.inj heq
        obtain ⟨hkey, rfl⟩ := Prod.mk.inj heq'
        rw [List.inj_on_of_nodup_map hnodup hp hp' hkey]
    rwa [accepted_of_not_turnedAway hstep hstays (by rw [hresolve c hc])] at hreport

theorem staticOnly_of_unannotated {c : Channel}
    (h : channelPortClaims cfg c = .ok Dict.empty) : StaticOnly cfg c :=
  ⟨Dict.empty, h, fun p _ => by simp⟩

def settledPass : AdmittedPass where
  mux := sampleMux [] [("07bb300", 80), ("64bbd5a", 81)]
  channels := [sampleChannel "web" "http" 80 [("svc-mux.nowake.ai/ports", "http:80->80")],
    sampleChannel "api" "http" 81 [("svc-mux.nowake.ai/ports", "http:81->81")]]
  configmap := some (sampleConfigmap [sampleClaim "api" 81 81 "static",
    sampleClaim "web" 80 80 "static"])
  order := sampleOrder
  admitted := by decide +kernel
  distinct := by decide +kernel

theorem static_channels_accepted_settledPass :
    ∃ r, muxPass sampleConfig settledPass.toPassInput = .ok r ∧
      Fixpoint sampleConfig settledPass.toPassInput r ∧
      OwnersAgree sampleConfig settledPass.toPassInput := by
  obtain ⟨r, hpass, hfixpoint, haccepted⟩ :
      ∃ r, muxPass sampleConfig settledPass.toPassInput = .ok r ∧
        (Fixpoint sampleConfig settledPass.toPassInput r ∧ ∀ c ∈ settledPass.channels,
          (c, Outcome.accepted (staticPorts sampleConfig c)) ∈ r.reports) := by decide +kernel
  have hclaims : ∀ c ∈ settledPass.channels, channelPortClaims sampleConfig c = .ok Dict.empty := by
    decide +kernel
  exact ⟨r, hpass, hfixpoint, (static_channels_accepted_iff sampleConfig settledPass r hpass
    (fun c hc => staticOnly_of_unannotated (hclaims c hc)) (by decide +kernel)
    (by decide +kernel)).mp haccepted⟩

/-- The channel `web` has its two port numbers swapped since its claims were recorded. -/
def swappedWeb : Channel where
  namespace_ := "default"
  name := "web"
  annotations := Dict.ofList [("svc-mux.nowake.ai/ports", "http:80->80, web:81->81")]
  ports := [⟨some "http", 81, some "TCP"⟩, ⟨some "web", 80, some "TCP"⟩]

def swappedPass : AdmittedPass where
  mux := sampleMux [] [("placeholder", 101)]
  channels := [swappedWeb]
  configmap := some (sampleConfigmap [sampleClaim "web" 80 80 "static",
    Claim.ofRef ⟨"default", "web", "web", "TCP"⟩ 81 81 "static"])
  order := sampleOrder
  admitted := by decide +kernel
  distinct := by decide +kernel

/-- The swapped channel is rejected over its own claims, in a state that the pass leaves as it is. -/
theorem static_channel_locked_out_swappedPass :
    (∀ c ∈ swappedPass.channels, StaticOnly sampleConfig c) ∧
      ((swappedPass.channels.flatMap (staticPorts sampleConfig)).map ResolvedPort.key).Nodup ∧
      (muxPortLimit sampleConfig swappedPass.mux).1 = none ∧
      (∃ state, (muxStore sampleConfig swappedPass.mux).load swappedPass.configmap = .ok state) ∧
      ∃ r, muxPass sampleConfig swappedPass.toPassInput = .ok r ∧
        Fixpoint sampleConfig swappedPass.toPassInput r ∧
        (swappedWeb, Outcome.rejected (.portConflict (staticPorts sampleConfig swappedWeb)
          ["80/TCP is already claimed by default/web:07bb300",
            "81/TCP is already claimed by default/web:44ee502"])) ∈ r.reports ∧
        ∀ resolved, (swappedWeb, Outcome.accepted resolved) ∉ r.reports := by
  have hclaims : ∀ c ∈ swappedPass.channels, channelPortClaims sampleConfig c = .ok Dict.empty := by
    decide +kernel
  obtain ⟨r, hpass, hfixpoint, hrejected⟩ :
      ∃ r, muxPass sampleConfig swappedPass.toPassInput = .ok r ∧
        (Fixpoint sampleConfig swappedPass.toPassInput r ∧
          (swappedWeb, Outcome.rejected (.portConflict (staticPorts sampleConfig swappedWeb)
            ["80/TCP is already claimed by default/web:07bb300",
              "81/TCP is already claimed by default/web:44ee502"])) ∈ r.reports) := by decide +kernel
  refine ⟨fun c hc => staticOnly_of_unannotated (hclaims c hc), by decide +kernel, by decide +kernel,
    ⟨_, rfl⟩, r, hpass, hfixpoint, hrejected, fun resolved haccepted => ?_⟩
  cases swappedPass.eq_of_mem_reports hpass hrejected haccepted

end SvcLbMux
