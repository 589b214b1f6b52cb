import Mathlib.Data.String.Basic
import Mathlib.Data.List.Sort
import SvcLbMux.Annotations
import SvcLbMux.PortIdentity

namespace SvcLbMux

open Py

variable (cfg : Config)

def validateDeclaredPortNames (channel : Channel) (explicitPorts : Dict String PortRequest) :
    Except ValueError Unit :=
  let unnamedIndexes := channel.ports.zipIdx.filterMap fun e =>
    if e.1.unnamed then some (str e.2) else none
  if unnamedIndexes ≠ [] then
    .error ⟨"channel Service ports must be named; missing name at spec.ports index(es): " ++
      String.intercalate ", " unnamedIndexes⟩
  else
    let declared := channel.ports.map ServicePort.portName
    let unknownNames := (explicitPorts.keys.filter (· ∉ declared)).insertionSort (· ≤ ·)
    if unknownNames ≠ [] then
      .error ⟨cfg.annotationExternalPorts ++ " references unknown port name(s): " ++
        String.intercalate ", " unknownNames⟩
    else .ok ()

/-- The explicit ports of a channel, its annotation and port names being valid. -/
def channelPortClaims (channel : Channel) : Except ValueError (Dict String PortRequest) :=
  match parseExternalPortsAnnotation cfg (channel.annotation cfg.annotationExternalPorts) with
  | .error e => .error e
  | .ok explicitPorts =>
    match validateDeclaredPortNames cfg channel explicitPorts with
    | .error e => .error e
    | .ok () => .ok explicitPorts

/-- `allocator.allocate(channel, port)`, the allocator's state made explicit. -/
abbrev Allocate (σ : Type*) := Channel → ServicePort → σ → Except ValueError Int × σ

variable {σ : Type*}

def resolveChannelExternalPort (allocator : Option (Allocate σ)) (channel : Channel)
    (explicitPorts : Dict String PortRequest) (port : ServicePort) (state : σ) :
    Except ValueError Int × σ :=
  match explicitPorts.get port.portName with
  | some .auto =>
    match allocator with
    | none => (.error ⟨"automatic external port allocation requires a mux port range"⟩, state)
    | some allocate => allocate channel port state
  | some (.port requested) => (.ok requested, state)
  | none => (validatePortInt port.port ("spec.ports[" ++ port.portName ++ "].port"), state)

/-- A declared port and the mux port it was given. -/
structure ResolvedPort where
  port : ServicePort
  muxPort : Int
deriving DecidableEq

namespace ResolvedPort

def key (r : ResolvedPort) : PortKey := (r.muxPort, r.port.protocolOrTcp)

def toMuxPort (channel : Channel) (r : ResolvedPort) : MuxPort :=
  ⟨channel.muxName cfg r.port, r.muxPort, r.port.protocolOrTcp⟩

/-- The triple that the channel's `ports` annotation lists. -/
def mapping (r : ResolvedPort) : String × Int × Int := (r.port.portName, r.port.port, r.muxPort)

end ResolvedPort

/-- The loop of `resolve_channel_ports` over the declared ports. -/
def resolveDeclaredPorts (allocate : Allocate σ) (channel : Channel)
    (explicitPorts : Dict String PortRequest) :
    List ServicePort → σ → Except ValueError (List ResolvedPort) × σ
  | [], state => (.ok [], state)
  | port :: ports, state =>
    match resolveChannelExternalPort (some allocate) channel explicitPorts port state with
    | (.error e, state') => (.error e, state')
    | (.ok muxPort, state') =>
      match resolveDeclaredPorts allocate channel explicitPorts ports state' with
      | (.error e, state'') => (.error e, state'')
      | (.ok resolved, state'') => (.ok (⟨port, muxPort⟩ :: resolved), state'')

def resolveChannelPorts (allocate : Allocate σ) (channel : Channel) (state : σ) :
    Except ValueError (List ResolvedPort) × σ :=
  match channelPortClaims cfg channel with
  | .error e => (.error e, state)
  | .ok explicitPorts => resolveDeclaredPorts allocate channel explicitPorts channel.ports state

/-- The set of mux ports that `resolve_channel_ports` returns. -/
def muxPortsOf (channel : Channel) (resolved : List ResolvedPort) : Finset MuxPort :=
  (resolved.map (ResolvedPort.toMuxPort cfg channel)).toFinset

/-- The annotation text that `resolve_channel_ports` returns. -/
def portsAnnotationOf (resolved : List ResolvedPort) : String :=
  Annotations.formatChannelPortAnnotation (resolved.map ResolvedPort.mapping)

def collectStaticPortClaims (channels : List Channel) : Except ValueError (Finset PortKey) :=
  channels.foldlM (fun claims channel =>
    match channelPortClaims cfg channel with
    | .error _ => .ok claims
    | .ok explicitPorts =>
      channel.ports.foldlM (fun claims port =>
        if explicitPorts.get port.portName = some .auto then .ok claims
        else
          (resolveChannelExternalPort none channel explicitPorts port ()).1.map fun muxPort =>
            insert (muxPort, port.protocolOrTcp) claims) claims) ∅

/-- The mux port that a port asks for when it is not allocated. -/
def requestedPort (explicitPorts : Dict String PortRequest) (port : ServicePort) : Int :=
  match explicitPorts.get port.portName with
  | some (.port n) => n
  | _ => port.port

/-- A valid channel asks for a listener without the allocator. -/
def StaticallyRequests (channel : Channel) (key : PortKey) : Prop :=
  ∃ explicitPorts, channelPortClaims cfg channel = .ok explicitPorts ∧
    ∃ p ∈ channel.ports, explicitPorts.get p.portName ≠ some .auto ∧
      key = (requestedPort explicitPorts p, p.protocolOrTcp)

/-- Where a valid channel leaves a port to its number in the spec, that is a port number. -/
def SpecPortsInRange (channel : Channel) : Prop :=
  ∀ explicitPorts, channelPortClaims cfg channel = .ok explicitPorts → ∀ p ∈ channel.ports,
    explicitPorts.get p.portName = none → 1 ≤ p.port ∧ p.port ≤ 65535

/-! ## What validation establishes -/

variable {cfg}

theorem validateDeclaredPortNames_eq_ok {channel : Channel}
    {explicitPorts : Dict String PortRequest} :
    validateDeclaredPortNames cfg channel explicitPorts = .ok () ↔
      (∀ p ∈ channel.ports, p.unnamed = false) ∧
        ∀ name ∈ explicitPorts.keys, name ∈ channel.ports.map ServicePort.portName := by
  have hunnamed : (channel.ports.zipIdx.filterMap fun e =>
      if e.1.unnamed then some (str e.2) else none) = [] ↔
      ∀ p ∈ channel.ports, p.unnamed = false := by
    rw [List.filterMap_eq_nil_iff]
    constructor
    · intro h p hp
      obtain ⟨i, hi, rfl⟩ := List.mem_iff_getElem.mp hp
      have := h (channel.ports[i], i) (List.mk_mem_zipIdx_iff_getElem?.mpr (by simp [hi]))
      simpa using this
    · intro h e he
      simp [h e.1 (List.fst_mem_of_mem_zipIdx he)]
  have hunknown : (explicitPorts.keys.filter
        (· ∉ channel.ports.map ServicePort.portName)).insertionSort (· ≤ ·) = [] ↔
      ∀ name ∈ explicitPorts.keys, name ∈ channel.ports.map ServicePort.portName := by
    rw [← List.length_eq_zero_iff, List.length_insertionSort, List.length_eq_zero_iff,
      List.filter_eq_nil_iff]
    simp
  unfold validateDeclaredPortNames
  dsimp only
  split_ifs with h1 h2
  · simp only [false_iff, not_and_or]
    exact Or.inl fun h => h1 (hunnamed.mpr h)
  · simp only [false_iff, not_and_or]
    exact Or.inr fun h => h2 (hunknown.mpr h)
  · simp only [true_iff]
    exact ⟨hunnamed.mp (not_not.mp h1), hunknown.mp (not_not.mp h2)⟩

theorem parse_of_channelPortClaims {channel : Channel} {explicitPorts : Dict String PortRequest}
    (h : channelPortClaims cfg channel = .ok explicitPorts) :
    parseExternalPortsAnnotation cfg (channel.annotation cfg.annotationExternalPorts) =
      .ok explicitPorts := by
  unfold channelPortClaims at h
  split at h
  · cases h
  · rename_i parsed hparse
    split at h
    · cases h
    · rw [hparse, Except.ok.inj h]

theorem channelPortClaims_eq_ok {channel : Channel} {explicitPorts : Dict String PortRequest}
    (h : channelPortClaims cfg channel = .ok explicitPorts) :
    PortNumbersInRange explicitPorts ∧ ∀ p ∈ channel.ports, p.unnamed = false := by
  unfold channelPortClaims at h
  split at h
  · cases h
  · rename_i parsed hparse
    split at h
    · cases h
    · rename_i hnames
      obtain rfl := Except.ok.inj h
      exact ⟨parseExternalPortsAnnotation_inRange hparse,
        (validateDeclaredPortNames_eq_ok.mp hnames).1⟩

theorem requestedPort_inRange {channel : Channel} {explicitPorts : Dict String PortRequest}
    (hclaims : channelPortClaims cfg channel = .ok explicitPorts) (hc : channel.Admitted)
    {p : ServicePort} (hp : p ∈ channel.ports) :
    1 ≤ requestedPort explicitPorts p ∧ requestedPort explicitPorts p ≤ 65535 := by
  unfold requestedPort
  split
  · rename_i n hget
    exact (channelPortClaims_eq_ok hclaims).1 _ _ hget
  · exact (hc.ports p hp).port

/-! ## What resolving establishes -/

section Resolve

variable {allocate : Allocate σ} {channel : Channel} {explicitPorts : Dict String PortRequest}

theorem resolveChannelExternalPort_auto {port : ServicePort} {state : σ}
    (h : explicitPorts.get port.portName = some .auto) :
    resolveChannelExternalPort (some allocate) channel explicitPorts port state =
      allocate channel port state := by
  simp [resolveChannelExternalPort, h]

/-- A port that is not allocated resolves to what it asks for, unless its number is invalid; the
allocator is not involved. -/
theorem resolveChannelExternalPort_static (allocator : Option (Allocate σ)) (channel : Channel)
    (state : σ) {port : ServicePort} (hrange : PortNumbersInRange explicitPorts)
    (h : explicitPorts.get port.portName ≠ some .auto) :
    (resolveChannelExternalPort allocator channel explicitPorts port state).2 = state ∧
      ∀ n, (resolveChannelExternalPort allocator channel explicitPorts port state).1 = .ok n ↔
        n = requestedPort explicitPorts port ∧ 1 ≤ n ∧ n ≤ 65535 := by
  unfold resolveChannelExternalPort requestedPort
  cases hget : explicitPorts.get port.portName with
  | none =>
    refine ⟨rfl, fun n => ?_⟩
    dsimp only
    rw [validatePortInt_eq_ok]
    constructor
    · rintro ⟨rfl, hn⟩
      exact ⟨rfl, hn⟩
    · rintro ⟨rfl, hn⟩
      exact ⟨rfl, hn⟩
  | some request =>
    cases request with
    | auto => exact absurd hget h
    | port m =>
      refine ⟨rfl, fun n => ?_⟩
      dsimp only
      constructor
      · intro hok
        obtain rfl := Except.ok.inj hok
        exact ⟨rfl, hrange _ _ hget⟩
      · rintro ⟨rfl, -⟩
        rfl

/-- The rule for one declared port: what holds after the ports before it holds with it or, when it
fails, as before. -/
theorem resolveChannelExternalPort_rule {I : List ResolvedPort → σ → Prop} {done : List ResolvedPort}
    {port : ServicePort} {state : σ} (hrange : PortNumbersInRange explicitPorts)
    (hauto : explicitPorts.get port.portName = some .auto →
      (∀ n, (allocate channel port state).1 = .ok n →
        I (done ++ [⟨port, n⟩]) (allocate channel port state).2) ∧
        ∀ e, (allocate channel port state).1 = .error e → I done (allocate channel port state).2)
    (hstatic : explicitPorts.get port.portName ≠ some .auto → 1 ≤ requestedPort explicitPorts port →
      requestedPort explicitPorts port ≤ 65535 →
      I (done ++ [⟨port, requestedPort explicitPorts port⟩]) state)
    (hI : I done state) :
    (∀ n, (resolveChannelExternalPort (some allocate) channel explicitPorts port state).1 = .ok n →
      I (done ++ [⟨port, n⟩])
        (resolveChannelExternalPort (some allocate) channel explicitPorts port state).2) ∧
    ∀ e, (resolveChannelExternalPort (some allocate) channel explicitPorts port state).1 = .error e →
      I done (resolveChannelExternalPort (some allocate) channel explicitPorts port state).2 := by
  by_cases h : explicitPorts.get port.portName = some .auto
  · rw [resolveChannelExternalPort_auto h]
    exact hauto h
  · obtain ⟨hsame, hok⟩ := resolveChannelExternalPort_static (some allocate) channel state hrange h
    rw [hsame]
    refine ⟨fun n hn => ?_, fun _ _ => hI⟩
    obtain ⟨rfl, hlo, hhi⟩ := (hok n).mp hn
    exact hstatic h hlo hhi

/-- The rule for the loop over the declared ports. The invariant `I` speaks about the ports resolved
so far; when a port fails, it holds of those before it. -/
theorem resolveDeclaredPorts_rule {I : List ResolvedPort → σ → Prop} {done : List ResolvedPort}
    {ports : List ServicePort} {state : σ} (hrange : PortNumbersInRange explicitPorts)
    (hauto : ∀ done p st, done.map ResolvedPort.port ++ [p] <+: channel.ports →
      explicitPorts.get p.portName = some .auto → I done st →
      (∀ n, (allocate channel p st).1 = .ok n → I (done ++ [⟨p, n⟩]) (allocate channel p st).2) ∧
        ∀ e, (allocate channel p st).1 = .error e → I done (allocate channel p st).2)
    (hstatic : ∀ done p st, done.map ResolvedPort.port ++ [p] <+: channel.ports →
      explicitPorts.get p.portName ≠ some .auto → 1 ≤ requestedPort explicitPorts p →
      requestedPort explicitPorts p ≤ 65535 → I done st →
      I (done ++ [⟨p, requestedPort explicitPorts p⟩]) st)
    (hports : done.map ResolvedPort.port ++ ports = channel.ports) (hI : I done state) :
    ∃ resolved,
      I (done ++ resolved)
        (resolveDeclaredPorts allocate channel explicitPorts ports state).2 ∧
      ∀ r, (resolveDeclaredPorts allocate channel explicitPorts ports state).1 = .ok r →
        r = resolved ∧ resolved.map ResolvedPort.port = ports := by
  induction ports generalizing done state with
  | nil =>
    refine ⟨[], by simpa [resolveDeclaredPorts] using hI, ?_⟩
    rintro r ⟨⟩
    exact ⟨rfl, rfl⟩
  | cons port ports ih =>
    have hhead : done.map ResolvedPort.port ++ [port] <+: channel.ports :=
      ⟨ports, by simpa using hports⟩
    have hone := resolveChannelExternalPort_rule hrange
      (fun h => hauto done port state hhead h hI)
      (fun h hlo hhi => hstatic done port state hhead h hlo hhi hI) hI
    rw [resolveDeclaredPorts]
    rcases hres : resolveChannelExternalPort (some allocate) channel explicitPorts port state with
      ⟨e | muxPort, state'⟩
    · rw [hres] at hone
      refine ⟨[], by simpa using hone.2 e rfl, ?_⟩
      rintro r ⟨⟩
    · rw [hres] at hone
      have hports' : (done ++ [ResolvedPort.mk port muxPort]).map ResolvedPort.port ++ ports =
          channel.ports := by
        simpa using hports
      obtain ⟨resolved, hI', hall⟩ := ih hports' (hone.1 muxPort rfl)
      rw [List.append_assoc] at hI'
      refine ⟨[⟨port, muxPort⟩] ++ resolved, ?_⟩
      dsimp only
      rcases hrest : resolveDeclaredPorts allocate channel explicitPorts ports state' with
        ⟨e | rest, state''⟩
      · rw [hrest] at hI'
        refine ⟨hI', ?_⟩
        rintro r ⟨⟩
      · rw [hrest] at hI' hall
        refine ⟨hI', ?_⟩
        rintro r ⟨⟩
        obtain ⟨rfl, hmap⟩ := hall rest rfl
        exact ⟨rfl, by simp [hmap]⟩

theorem resolveChannelPorts_rule (cfg : Config) (channel : Channel) (state : σ)
    (I : Dict String PortRequest → List ResolvedPort → σ → Prop)
    (hauto : ∀ explicitPorts done p st, done.map ResolvedPort.port ++ [p] <+: channel.ports →
      explicitPorts.get p.portName = some .auto → I explicitPorts done st →
      (∀ n, (allocate channel p st).1 = .ok n →
        I explicitPorts (done ++ [⟨p, n⟩]) (allocate channel p st).2) ∧
        ∀ e, (allocate channel p st).1 = .error e → I explicitPorts done (allocate channel p st).2)
    (hstatic : ∀ explicitPorts done p st, done.map ResolvedPort.port ++ [p] <+: channel.ports →
      explicitPorts.get p.portName ≠ some .auto → 1 ≤ requestedPort explicitPorts p →
      requestedPort explicitPorts p ≤ 65535 → I explicitPorts done st →
      I explicitPorts (done ++ [⟨p, requestedPort explicitPorts p⟩]) st)
    (hI : ∀ explicitPorts, channelPortClaims cfg channel = .ok explicitPorts →
      I explicitPorts [] state) :
    (∃ e, channelPortClaims cfg channel = .error e ∧
      resolveChannelPorts cfg allocate channel state = (.error e, state)) ∨
    ∃ explicitPorts resolved, channelPortClaims cfg channel = .ok explicitPorts ∧
      I explicitPorts resolved (resolveChannelPorts cfg allocate channel state).2 ∧
      ∀ r, (resolveChannelPorts cfg allocate channel state).1 = .ok r →
        r = resolved ∧ resolved.map ResolvedPort.port = channel.ports := by
  unfold resolveChannelPorts
  cases hclaims : channelPortClaims cfg channel with
  | error e => exact Or.inl ⟨e, rfl, rfl⟩
  | ok explicitPorts =>
    obtain ⟨resolved, hfinal, hall⟩ := resolveDeclaredPorts_rule
      (channelPortClaims_eq_ok hclaims).1 (hauto explicitPorts) (hstatic explicitPorts)
      (List.nil_append channel.ports) (hI explicitPorts hclaims)
    exact Or.inr ⟨explicitPorts, resolved, rfl, by simpa using hfinal, hall⟩

end Resolve

/-! ## What the static claims are -/

section StaticClaims

theorem mem_collectStaticPortClaims {channels : List Channel} {claims : Finset PortKey}
    (h : collectStaticPortClaims cfg channels = .ok claims) (key : PortKey) :
    key ∈ claims ↔ ∃ c ∈ channels, StaticallyRequests cfg c key := by
  unfold collectStaticPortClaims at h
  rw [Loop.foldlM_adds (fun claims key => key ∈ claims) (StaticallyRequests cfg) ?_ h]
  · simp
  intro claims channel claims' hstep key
  unfold StaticallyRequests
  cases hclaims : channelPortClaims cfg channel with
  | error e =>
    rw [hclaims] at hstep
    obtain rfl := Except.ok.inj hstep
    simp
  | ok explicitPorts =>
    rw [hclaims] at hstep
    dsimp only at hstep
    rw [Loop.foldlM_adds (fun claims key => key ∈ claims)
      (fun p key => explicitPorts.get p.portName ≠ some .auto ∧
        key = (requestedPort explicitPorts p, p.protocolOrTcp)) ?_ hstep]
    · simp
    intro s p s' hp key
    by_cases hauto : explicitPorts.get p.portName = some .auto
    · rw [if_pos hauto] at hp
      obtain rfl := Except.ok.inj hp
      simp [hauto]
    · -- Without an allocator the resolver only reads the number, which is valid or raises.
      rw [if_neg hauto] at hp
      obtain ⟨-, hok⟩ := resolveChannelExternalPort_static none channel ()
        (channelPortClaims_eq_ok hclaims).1 hauto
      cases hres : (resolveChannelExternalPort none channel explicitPorts p ()).1 with
      | error e => simp [hres, Except.map] at hp
      | ok n =>
        simp only [hres, Except.map, Except.ok.injEq] at hp
        obtain ⟨rfl, -⟩ := (hok n).mp hres
        subst hp
        simp [hauto, or_comm]

/-- What a port asks for is valid, unless it is its own number in the spec that is not. -/
theorem requestedPort_inRange_iff {explicitPorts : Dict String PortRequest} {p : ServicePort}
    (hrange : PortNumbersInRange explicitPorts)
    (hauto : explicitPorts.get p.portName ≠ some .auto) :
    (1 ≤ requestedPort explicitPorts p ∧ requestedPort explicitPorts p ≤ 65535) ↔
      (explicitPorts.get p.portName = none → 1 ≤ p.port ∧ p.port ≤ 65535) := by
  unfold requestedPort
  cases hget : explicitPorts.get p.portName with
  | none => simp
  | some request =>
    cases request with
    | auto => exact absurd hget hauto
    | port n => exact iff_of_true (hrange _ _ hget) (by simp)

/-- The collector raises for an invalid number in a spec, and for nothing else. -/
theorem collectStaticPortClaims_ok_iff (cfg : Config) {channels : List Channel} :
    (∃ claims, collectStaticPortClaims cfg channels = .ok claims) ↔
      ∀ c ∈ channels, SpecPortsInRange cfg c := by
  refine Loop.foldlM_ok_iff (SpecPortsInRange cfg) (fun claims c => ?_) ∅
  unfold SpecPortsInRange
  cases hclaims : channelPortClaims cfg c with
  | error e => simp
  | ok explicitPorts =>
    simp only [Except.ok.injEq, forall_eq']
    refine Loop.foldlM_ok_iff _ (fun s p => ?_) claims
    by_cases hauto : explicitPorts.get p.portName = some .auto
    · simp [hauto]
    · have hrange := (channelPortClaims_eq_ok hclaims).1
      obtain ⟨-, hok⟩ := resolveChannelExternalPort_static none c () hrange hauto
      rw [if_neg hauto, ← requestedPort_inRange_iff hrange hauto]
      cases hres : (resolveChannelExternalPort none c explicitPorts p ()).1 with
      | error e =>
        refine iff_of_false (by simp [Except.map]) fun hin => ?_
        rw [(hok _).mpr ⟨rfl, hin⟩] at hres
        cases hres
      | ok n =>
        obtain ⟨rfl, hin⟩ := (hok n).mp hres
        exact iff_of_true ⟨_, rfl⟩ hin

theorem specPortsInRange_of_admitted {c : Channel} (hc : c.Admitted) : SpecPortsInRange cfg c :=
  fun _ _ p hp _ => (hc.ports p hp).port

/-- On Services that the API server admitted the collector does not raise. -/
theorem collectStaticPortClaims_ok (cfg : Config) {channels : List Channel}
    (h : ∀ c ∈ channels, c.Admitted) :
    ∃ claims, collectStaticPortClaims cfg channels = .ok claims :=
  (collectStaticPortClaims_ok_iff cfg).mpr fun c hc => specPortsInRange_of_admitted (h c hc)

end StaticClaims

end SvcLbMux
