import Mathlib.Logic.Relation
import SvcLbMux.Allocator

namespace SvcLbMux

open Py

variable {cfg : Config} {σ : Type}

/-- The allocator never raises. -/
def AlwaysSucceeds (allocate : Allocate σ) : Prop :=
  ∀ c p st, ∃ n, (allocate c p st).1 = .ok n

/-- The resolver accepts the channel, and one of its non-`auto` ports is on the listener. -/
def ResolvesStatically (cfg : Config) (allocate : Allocate σ) (st : σ) (c : Channel)
    (key : PortKey) : Prop :=
  ∃ explicitPorts resolved, channelPortClaims cfg c = .ok explicitPorts ∧
    (resolveChannelPorts cfg allocate c st).1 = .ok resolved ∧
    ∃ r ∈ resolved, explicitPorts.get r.port.portName ≠ some .auto ∧ r.key = key

/-! ## Resolving with an allocator that succeeds -/

section Resolve

variable {allocate : Allocate σ} {c : Channel} {explicitPorts : Dict String PortRequest}

theorem resolveChannelExternalPort_ok_iff (hsucceeds : AlwaysSucceeds allocate)
    (hrange : PortNumbersInRange explicitPorts) (p : ServicePort) (st : σ) :
    (∃ n, (resolveChannelExternalPort (some allocate) c explicitPorts p st).1 = .ok n) ↔
      (explicitPorts.get p.portName = none → 1 ≤ p.port ∧ p.port ≤ 65535) := by
  by_cases hauto : explicitPorts.get p.portName = some .auto
  · rw [resolveChannelExternalPort_auto hauto]
    exact iff_of_true (hsucceeds c p st) (by simp [hauto])
  · obtain ⟨-, hok⟩ := resolveChannelExternalPort_static (some allocate) c st hrange hauto
    rw [← requestedPort_inRange_iff hrange hauto]
    constructor
    · rintro ⟨n, hn⟩
      obtain ⟨rfl, hin⟩ := (hok n).mp hn
      exact hin
    · exact fun hin => ⟨_, (hok _).mpr ⟨rfl, hin⟩⟩

theorem resolveDeclaredPorts_ok (hsucceeds : AlwaysSucceeds allocate)
    (hrange : PortNumbersInRange explicitPorts) {ports : List ServicePort}
    (hports : ∀ p ∈ ports, explicitPorts.get p.portName = none → 1 ≤ p.port ∧ p.port ≤ 65535)
    (st : σ) :
    ∃ resolved, (resolveDeclaredPorts allocate c explicitPorts ports st).1 = .ok resolved := by
  induction ports generalizing st with
  | nil => exact ⟨[], rfl⟩
  | cons p ports ih =>
    obtain ⟨n, hn⟩ := (resolveChannelExternalPort_ok_iff hsucceeds hrange p st).mpr
      (hports p (by simp))
    obtain ⟨rest, hrest⟩ := ih (fun q hq => hports q (List.mem_cons_of_mem _ hq))
      (resolveChannelExternalPort (some allocate) c explicitPorts p st).2
    rcases hone : resolveChannelExternalPort (some allocate) c explicitPorts p st with
      ⟨outcome, st'⟩
    rw [hone] at hn hrest
    obtain rfl : outcome = .ok n := hn
    rcases hothers : resolveDeclaredPorts allocate c explicitPorts ports st' with
      ⟨outcome', st''⟩
    rw [hothers] at hrest
    obtain rfl : outcome' = .ok rest := hrest
    exact ⟨⟨p, n⟩ :: rest, by simp only [resolveDeclaredPorts, hone, hothers]⟩

/-- A resolved non-`auto` port is on the port that it asks for. -/
theorem resolvedStatic_spec (hclaims : channelPortClaims cfg c = .ok explicitPorts) {st : σ}
    {resolved : List ResolvedPort}
    (hres : (resolveChannelPorts cfg allocate c st).1 = .ok resolved) :
    resolved.map ResolvedPort.port = c.ports ∧ ∀ r ∈ resolved,
      explicitPorts.get r.port.portName ≠ some .auto →
        r.muxPort = requestedPort explicitPorts r.port := by
  let I := fun (explicitPorts : Dict String PortRequest) (done : List ResolvedPort) (_ : σ) =>
    ∀ r ∈ done, explicitPorts.get r.port.portName ≠ some .auto →
      r.muxPort = requestedPort explicitPorts r.port
  obtain ⟨e, herror, -⟩ | ⟨explicitPorts', resolved', hclaims', hI, hok⟩ :=
    @resolveChannelPorts_rule _ allocate cfg c st I
      (fun explicitPorts done p st _ hauto hdone => ⟨fun n _ r hr => by
        rcases List.mem_append.mp hr with hr | hr
        · exact hdone r hr
        · obtain rfl := List.mem_singleton.mp hr
          exact fun h => absurd hauto h, fun _ _ => hdone⟩)
      (fun explicitPorts done p st _ _ _ _ hdone r hr => by
        rcases List.mem_append.mp hr with hr | hr
        · exact hdone r hr
        · obtain rfl := List.mem_singleton.mp hr
          exact fun _ => rfl)
      (fun _ _ => by simp [I])
  · rw [hclaims] at herror
    cases herror
  · obtain ⟨rfl, hports⟩ := hok resolved hres
    obtain rfl := Except.ok.inj (hclaims.symm.trans hclaims')
    exact ⟨hports, hI⟩

theorem resolvesStatically_iff (hsucceeds : AlwaysSucceeds allocate)
    (hspec : SpecPortsInRange cfg c) (st : σ) (key : PortKey) :
    ResolvesStatically cfg allocate st c key ↔ StaticallyRequests cfg c key := by
  constructor
  · rintro ⟨explicitPorts, resolved, hclaims, hres, r, hr, hauto, rfl⟩
    obtain ⟨hports, hstatic⟩ := resolvedStatic_spec hclaims hres
    refine ⟨explicitPorts, hclaims, r.port, hports ▸ List.mem_map_of_mem hr, hauto, ?_⟩
    rw [ResolvedPort.key, hstatic r hr hauto]
  · rintro ⟨explicitPorts, hclaims, p, hp, hauto, rfl⟩
    obtain ⟨resolved, hok⟩ := resolveDeclaredPorts_ok (c := c) hsucceeds
      (channelPortClaims_eq_ok hclaims).1 (hspec explicitPorts hclaims) st
    have hres : (resolveChannelPorts cfg allocate c st).1 = .ok resolved := by
      rw [resolveChannelPorts, hclaims]
      exact hok
    obtain ⟨hports, hstatic⟩ := resolvedStatic_spec hclaims hres
    rw [← hports] at hp
    obtain ⟨r, hr, rfl⟩ := List.mem_map.mp hp
    refine ⟨explicitPorts, resolved, hclaims, hres, r, hr, hauto, ?_⟩
    rw [ResolvedPort.key, hstatic r hr hauto]

end Resolve

/-! ## The operations of a pass on the claims -/

namespace MuxState

inductive Operation (cfg : Config) : MuxState → MuxState → Prop
  | allocate (c : Channel) (p : ServicePort) (st : MuxState) :
    Operation cfg st (MuxState.allocate cfg c p st).2
  | recordChannelClaims {c : Channel} {portsText : String} {st st' : MuxState}
    (h : st.recordChannelClaims cfg c portsText = .ok st') : Operation cfg st st'

abbrev Reached (cfg : Config) : MuxState → MuxState → Prop :=
  Relation.ReflTransGen (Operation cfg)

theorem fixed_operation {st st' : MuxState} (h : Operation cfg st st') : st'.fixed = st.fixed := by
  cases h with
  | allocate c p => exact fixed_allocate c p
  | recordChannelClaims hrecord =>
    exact recordChannelClaims_invariant (fun st' => st'.fixed = st.fixed)
      (fun _ _ _ _ _ hst => (fixed_setClaim _ _ _ _ _).trans hst) rfl hrecord

theorem fixed_of_reached {st st' : MuxState} (h : Reached cfg st st') : st'.fixed = st.fixed := by
  induction h with
  | refl => rfl
  | tail _ hstep ih => exact (fixed_operation hstep).trans ih

theorem reached_channelStep {muxKey : String × String} {maxPorts : Option Int} {s s' : LoopState}
    {c : Channel} {outcome : Outcome}
    (h : channelStep cfg muxKey maxPorts s c = .ok (s', outcome)) :
    Reached cfg s.muxState s'.muxState := by
  have hresolve : Reached cfg s.muxState (processChannelPorts cfg c s.muxState).2 :=
    resolve_invariant (Reached cfg s.muxState) (fun _ p _ hst => hst.tail (.allocate c p _)) .refl
  obtain ⟨-, -, -, -, hstate⟩ | ⟨resolved, -, -, -, -, -, -, hrecord⟩ := channelStep_cases h
  · rw [hstate]
    split_ifs
    · exact .refl
    · exact hresolve
  · exact hresolve.tail (.recordChannelClaims hrecord)

/-- So is the loop of a pass, whatever the order of the channels. -/
theorem reached_run {muxKey : String × String} {maxPorts : Option Int} {order : List Channel}
    {s s' : LoopState} {log : List (Channel × Outcome)}
    (h : Loop.run (channelStep cfg muxKey maxPorts) order s = .ok (s', log)) :
    Reached cfg s.muxState s'.muxState :=
  Loop.run_invariant (fun s' => Reached cfg s.muxState s'.muxState) .refl
    (fun _ _ _ _ _ hs hstep => hs.trans (reached_channelStep hstep)) h

theorem notMem_reservedPorts_of_allocate {st : MuxState} {c : Channel} {p : ServicePort} {n : Int}
    (h : (allocate cfg c p st).1 = .ok n) : (n, p.protocolOrTcp) ∉ st.reservedPorts :=
  (qualifies_of_due (allocate_eq_ok_iff_due.mp h)).unreserved

end MuxState

/-- The claims are the listeners that the resolver hands out without the allocator to the channels
that it accepts, and no allocation of a pass, in whatever order, comes to one of them. -/
structure StaticClaimsAgree (cfg : Config) (channels : List Channel) (claims : Finset PortKey) :
    Prop where
  resolved : ∀ {σ : Type} (allocate : Allocate σ) (st : σ), AlwaysSucceeds allocate →
    ∀ key, key ∈ claims ↔ ∃ c ∈ channels, ResolvesStatically cfg allocate st c key
  apart : ∀ muxKey ranges state recovered muxState,
    MuxState.Reached cfg (MuxState.init muxKey ranges state channels claims recovered) muxState →
    ∀ c p n, (MuxState.allocate cfg c p muxState).1 = .ok n →
    ∀ {σ : Type} (allocate : Allocate σ) (st : σ), AlwaysSucceeds allocate →
    ∀ d ∈ channels, ¬ ResolvesStatically cfg allocate st d (n, p.protocolOrTcp)

/-- The collected claims are those of the resolver, and allocations keep clear of them, exactly when
the numbers that valid channels leave to their spec are port numbers. -/
theorem static_claims_agree_iff (cfg : Config) (channels : List Channel) :
    (∃ claims, collectStaticPortClaims cfg channels = .ok claims ∧
      StaticClaimsAgree cfg channels claims) ↔ ∀ c ∈ channels, SpecPortsInRange cfg c := by
  rw [← collectStaticPortClaims_ok_iff cfg]
  constructor
  · rintro ⟨claims, hok, -⟩
    exact ⟨claims, hok⟩
  · rintro ⟨claims, hok⟩
    have hspec := (collectStaticPortClaims_ok_iff cfg).mp ⟨claims, hok⟩
    have hresolved : ∀ {σ : Type} (allocate : Allocate σ) (st : σ), AlwaysSucceeds allocate →
        ∀ key, key ∈ claims ↔ ∃ c ∈ channels, ResolvesStatically cfg allocate st c key := by
      intro σ allocate st hsucceeds key
      rw [mem_collectStaticPortClaims hok]
      refine exists_congr fun c => and_congr_right fun hc => ?_
      rw [resolvesStatically_iff hsucceeds (hspec c hc)]
    refine ⟨claims, hok, hresolved, ?_⟩
    intro muxKey ranges state recovered muxState hreached c p n hn σ allocate st hsucceeds d hd hstatic
    have hreserved : muxState.reservedPorts = claims :=
      MuxState.reservedPorts_of_fixed (MuxState.fixed_of_reached hreached)
    refine MuxState.notMem_reservedPorts_of_allocate hn ?_
    rw [hreserved, hresolved allocate st hsucceeds]
    exact ⟨d, hd, hstatic⟩

/-- A channel that the resolver rejects for its port number, after one that is fine. -/
def misnumberedChannels : List Channel :=
  [sampleChannel "api" "http" 80 [], sampleChannel "web" "http" 70000 []]

/-- The collector raises, though the resolver only rejects the channel, and still resolves the
other. -/
theorem static_claims_disagree_misnumbered :
    (¬ ∃ claims, collectStaticPortClaims sampleConfig misnumberedChannels = .ok claims ∧
      StaticClaimsAgree sampleConfig misnumberedChannels claims) ∧
    collectStaticPortClaims sampleConfig misnumberedChannels =
      .error ⟨"Invalid spec.ports[http].port port 70000; expected 1-65535"⟩ ∧
    misnumberedChannels.map (fun c =>
      (resolveChannelPorts sampleConfig (fun _ _ st => (.ok 1, st)) c ()).1.toOption) =
      [some [⟨⟨some "http", 80, some "TCP"⟩, 80⟩], none] := by
  have herror : collectStaticPortClaims sampleConfig misnumberedChannels =
      .error ⟨"Invalid spec.ports[http].port port 70000; expected 1-65535"⟩ := by decide +kernel
  refine ⟨?_, herror, by decide +kernel⟩
  rintro ⟨claims, hok, -⟩
  rw [herror] at hok
  cases hok

end SvcLbMux
