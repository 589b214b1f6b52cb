import Mathlib.Data.List.Pairwise
import SvcLbMux.MuxState

namespace SvcLbMux

open Py

/-! ## Claims of declared ports -/

theorem claimOwner_of_claimKey (cfg : Config) {claims : Dict String Claim}
    (hwk : WellKeyed claims) {c : Channel}
    (hc : c.Admitted) {p : ServicePort} (hp : p ∈ c.ports) {claim : Claim}
    (hget : claims.get (c.claimKey p) = some claim) :
    claimOwner cfg claim = c.owner cfg p ∧ claim.protocolOrTcp = p.protocolOrTcp := by
  have href := ref_eq_of_claimKey_eq _ hc hp (hwk _ _ hget)
  exact ⟨claimOwner_of_ref cfg href, congrArg PortAllocationRef.protocol href⟩

theorem mem_activeClaimKeys {channels : List Channel} {key : String} :
    key ∈ activeClaimKeys channels ↔
      ∃ c ∈ channels, ∃ p ∈ c.ports, p.unnamed = false ∧ c.claimKey p = key := by
  simp only [activeClaimKeys, List.mem_flatMap, List.mem_map, List.mem_filter, Bool.not_eq_true',
    and_assoc]

namespace MuxState

/-! ## Loaded claims -/

section Loaded

theorem claimMuxPort_normalizeClaim (claim : Claim) :
    claimMuxPort (normalizeClaim claim) = claimMuxPort claim := by
  unfold normalizeClaim
  cases hport : claimMuxPort claim with
  | none =>
    rw [claimMuxPort] at hport ⊢
    exact hport
  | some port => simp [claimMuxPort, FieldValue.toInt]

@[simp] theorem ref_normalizeClaim (claim : Claim) : (normalizeClaim claim).ref = claim.ref := by
  unfold normalizeClaim
  cases claimMuxPort claim <;> rfl

@[simp] theorem listener_normalizeClaim (claim : Claim) :
    (normalizeClaim claim).listener = claim.listener := by
  rw [Claim.listener, Claim.listener, claimMuxPort_normalizeClaim]
  exact congrArg (fun ref => (claimMuxPort claim).map fun port => (port, ref.protocol))
    (ref_normalizeClaim claim)

/-- A claim as the loop of a pass sees it. -/
def Normalized (claims : Dict String Claim) : Prop :=
  ∀ key claim, claims.get key = some claim → normalizeClaim claim = claim

theorem normalizeClaim_ofRef (ref : PortAllocationRef) (channelPort muxPort : Int)
    (mode : String) :
    normalizeClaim (Claim.ofRef ref channelPort muxPort mode) =
      Claim.ofRef ref channelPort muxPort mode := by
  unfold normalizeClaim
  rw [claimMuxPort_ofRef]
  rfl

theorem normalizeClaim_idem (claim : Claim) :
    normalizeClaim (normalizeClaim claim) = normalizeClaim claim := by
  have hport := claimMuxPort_normalizeClaim claim
  unfold normalizeClaim at hport ⊢
  cases h : claimMuxPort claim with
  | none =>
    rw [h] at hport
    simp only at hport ⊢
    rw [hport]
    cases claim.source <;> rfl
  | some port =>
    rw [h] at hport
    simp only at hport ⊢
    rw [hport]
    cases claim.source <;> rfl

theorem exists_mem_of_get_claimsByKey {claims : List Claim} {key : String} {claim : Claim}
    (h : (claimsByKey claims).get key = some claim) :
    ∃ listed ∈ claims, listed.ref.key = key ∧ claim = normalizeClaim listed := by
  rcases Dict.mem_or_get_of_get_updateList _ _ _ _ h with hmem | hempty
  · obtain ⟨listed, hl, heq⟩ := List.mem_map.mp hmem
    obtain ⟨rfl, rfl⟩ := Prod.mk.inj heq
    exact ⟨listed, hl, rfl, rfl⟩
  · simp at hempty

variable {muxKey : String × String} {ranges : List (Int × Int)} {state : Option StateDoc}
  {channels : List Channel} {reservedPorts : Finset PortKey}
  {reservedPortOwners : Dict PortKey String}

theorem get_claims_init (key : String) :
    (init muxKey ranges state channels reservedPorts reservedPortOwners).claims.get key =
      if key ∈ activeClaimKeys channels then (claimsByKey (stateClaims state)).get key
      else none := by
  simp [init]

/-- A claim that a pass starts with is listed in the state and on a port that is still declared. -/
theorem exists_mem_of_get_claims_init {key : String} {claim : Claim}
    (h : (init muxKey ranges state channels reservedPorts reservedPortOwners).claims.get key =
      some claim) :
    key ∈ activeClaimKeys channels ∧
      ∃ listed ∈ stateClaims state, listed.ref.key = key ∧ claim = normalizeClaim listed := by
  rw [get_claims_init] at h
  split_ifs at h with hkey
  exact ⟨hkey, exists_mem_of_get_claimsByKey h⟩

theorem wellKeyed_init :
    WellKeyed (init muxKey ranges state channels reservedPorts reservedPortOwners).claims := by
  intro key claim h
  obtain ⟨-, listed, -, hkey, rfl⟩ := exists_mem_of_get_claims_init h
  rw [ref_normalizeClaim, hkey]

theorem normalized_init :
    Normalized (init muxKey ranges state channels reservedPorts reservedPortOwners).claims := by
  intro key claim h
  obtain ⟨-, listed, -, -, rfl⟩ := exists_mem_of_get_claims_init h
  exact normalizeClaim_idem listed

theorem normalized_setClaim {st : MuxState} (hst : Normalized st.claims) (ref : PortAllocationRef)
    (channelPort muxPort : Int) (mode : String) :
    Normalized (st.setClaim ref channelPort muxPort mode).claims := by
  intro key claim hget
  rw [get_claims_setClaim] at hget
  split_ifs at hget
  · obtain rfl := Option.some.inj hget
    exact normalizeClaim_ofRef _ _ _ _
  · exact hst key claim hget

theorem normalized_allocate {cfg : Config} {st : MuxState} (hst : Normalized st.claims)
    (channel : Channel) (p : ServicePort) : Normalized (allocate cfg channel p st).2.claims := by
  obtain ⟨e, h⟩ | ⟨n, -, h⟩ | ⟨n, -, -, -, h⟩ := allocate_cases cfg st channel p
  · rwa [h]
  · rwa [h]
  · rw [h]
    exact normalized_setClaim hst _ _ _ _

/-- Two claims are not on one listener. -/
def ListenersDiffer (claim claim' : Claim) : Prop :=
  ∀ listener, claim.listener = some listener → claim'.listener ≠ some listener

instance : Std.Symm ListenersDiffer := ⟨fun _ _ h listener hb ha => h listener ha hb⟩

theorem listenersDiffer_iff (claim claim' : Claim) :
    ListenersDiffer claim claim' ↔ claim.listener = none ∨ claim.listener ≠ claim'.listener := by
  cases h : claim.listener with
  | none => simp [ListenersDiffer, h]
  | some listener => simp [ListenersDiffer, h, eq_comm]

instance : DecidableRel ListenersDiffer := fun claim claim' =>
  decidable_of_iff _ (listenersDiffer_iff claim claim').symm

def ListenersDistinct (claims : List Claim) : Prop := claims.Pairwise ListenersDiffer

instance (claims : List Claim) : Decidable (ListenersDistinct claims) :=
  inferInstanceAs (Decidable (claims.Pairwise ListenersDiffer))

theorem eq_of_listenersDistinct {claims : List Claim} (h : ListenersDistinct claims)
    {claim claim' : Claim} (hmem : claim ∈ claims) (hmem' : claim' ∈ claims) {listener : PortKey}
    (hl : claim.listener = some listener) (hl' : claim'.listener = some listener) :
    claim = claim' := by
  by_contra hne
  exact h.forall hmem hmem' hne listener hl hl'

theorem claimsExclusive_init (h : ListenersDistinct (stateClaims state)) :
    ClaimsExclusive
      (init muxKey ranges state channels reservedPorts reservedPortOwners).claims := by
  intro key key' claim claim' listener hget hget' hl hl'
  obtain ⟨-, listed, hmem, rfl, rfl⟩ := exists_mem_of_get_claims_init hget
  obtain ⟨-, listed', hmem', rfl, rfl⟩ := exists_mem_of_get_claims_init hget'
  rw [listener_normalizeClaim] at hl hl'
  rw [eq_of_listenersDistinct h hmem hmem' hl hl']

end Loaded

/-! ## Owners of claimed ports -/

section PortOwners

variable {cfg : Config} {st : MuxState}

theorem exists_claim_of_get_portOwners {listener : PortKey} {owner : String}
    (h : (st.portOwners cfg).get listener = some owner) :
    ∃ key claim, st.claims.get key = some claim ∧ claim.listener = some listener ∧
      owner = claimOwner cfg claim := by
  rw [portOwners, Dict.get_setDefaults, Dict.get_empty, Option.none_or,
    Option.map_eq_some_iff] at h
  obtain ⟨⟨l, o⟩, hfind, rfl⟩ := h
  have hl : l = listener := by simpa using List.find?_some hfind
  obtain ⟨⟨key, claim⟩, hmem, heq⟩ := List.mem_filterMap.mp (List.mem_of_find?_eq_some hfind)
  obtain ⟨l', hl', hpair⟩ := Option.map_eq_some_iff.mp heq
  obtain ⟨rfl, rfl⟩ := Prod.mk.inj hpair
  exact ⟨key, claim, (Dict.get_eq_some_iff _ _ _).mpr hmem, hl'.trans (congrArg some hl), rfl⟩

theorem get_portOwners_ne_none (cfg : Config) {key : String} {claim : Claim} {listener : PortKey}
    (hget : st.claims.get key = some claim) (hl : claim.listener = some listener) :
    (st.portOwners cfg).get listener ≠ none := by
  rw [portOwners, Dict.get_setDefaults, Dict.get_empty, Option.none_or, ne_eq,
    Option.map_eq_none_iff, List.find?_eq_none]
  intro hnone
  refine hnone (listener, claimOwner cfg claim) (List.mem_filterMap.mpr ⟨(key, claim), ?_, ?_⟩) ?_
  · exact (Dict.get_eq_some_iff _ _ _).mp hget
  · simp [hl]
  · simp

theorem get_portOwners_of_claim (hst : ClaimsExclusive st.claims) {key : String} {claim : Claim}
    {listener : PortKey} (hget : st.claims.get key = some claim)
    (hl : claim.listener = some listener) :
    (st.portOwners cfg).get listener = some (claimOwner cfg claim) := by
  obtain ⟨owner, howner⟩ := Option.ne_none_iff_exists'.mp (get_portOwners_ne_none cfg hget hl)
  obtain ⟨key', claim', hget', hl', rfl⟩ := exists_claim_of_get_portOwners howner
  obtain rfl := hst key key' claim claim' listener hget hget' hl hl'
  rw [howner, Option.some.inj (hget.symm.trans hget')]

end PortOwners

/-! ## Resolving a channel -/

section Resolving

variable {cfg : Config} {st : MuxState} {channel : Channel}

/-- What every allocation for a channel preserves, resolving the channel preserves, whether it
succeeds or not. -/
theorem resolve_invariant (P : MuxState → Prop)
    (hP : ∀ st, ∀ p ∈ channel.ports, P st → P (allocate cfg channel p st).2) (hst : P st) :
    P (resolveChannelPorts cfg (allocate cfg) channel st).2 := by
  obtain ⟨e, -, h⟩ | ⟨explicitPorts, resolved, -, h, -⟩ :=
    resolveChannelPorts_rule cfg channel st (fun _ _ st => P st)
      (fun _ _ p st hhead _ h =>
        have hp : p ∈ channel.ports := hhead.subset (by simp)
        ⟨fun _ _ => hP st p hp h, fun _ _ => hP st p hp h⟩)
      (fun _ _ _ _ _ _ _ _ h => h) (fun _ _ => hst)
  · rw [h]
    exact hst
  · exact h

theorem fixed_resolve :
    (resolveChannelPorts cfg (allocate cfg) channel st).2.fixed = st.fixed :=
  resolve_invariant (fun st' => st'.fixed = st.fixed)
    (fun _ p _ h => (fixed_allocate channel p).trans h) rfl

theorem wellKeyed_resolve (hst : WellKeyed st.claims) :
    WellKeyed (resolveChannelPorts cfg (allocate cfg) channel st).2.claims :=
  resolve_invariant (fun st' => WellKeyed st'.claims)
    (fun _ p _ h => wellKeyed_allocate h channel p) hst

theorem claimsExclusive_resolve (hst : ClaimsExclusive st.claims) :
    ClaimsExclusive (resolveChannelPorts cfg (allocate cfg) channel st).2.claims :=
  resolve_invariant (fun st' => ClaimsExclusive st'.claims)
    (fun _ p _ h => claimsExclusive_allocate h channel p) hst

/-- What one channel has the only claim on, no other channel takes while it is resolved. -/
theorem SoleClaim.after_resolve {r : ResolvedPort} (h : st.SoleClaim channel r) {d : Channel}
    (hkey : ∀ p ∈ d.ports, d.claimKey p ≠ channel.claimKey r.port) :
    (resolveChannelPorts cfg (allocate cfg) d st).2.SoleClaim channel r :=
  resolve_invariant (fun st' => st'.SoleClaim channel r)
    (fun _ p hp h => h.after_allocate (hkey p hp)) h

/-- What a resolved port is: allocated and held, or the port that was asked for. -/
structure Resolution (cfg : Config) (channel : Channel) (explicitPorts : Dict String PortRequest)
    (st : MuxState) (r : ResolvedPort) : Prop where
  auto : explicitPorts.get r.port.portName = some .auto → st.Held cfg channel r
  static : explicitPorts.get r.port.portName ≠ some .auto →
    r.muxPort = requestedPort explicitPorts r.port ∧ 1 ≤ r.muxPort ∧ r.muxPort ≤ 65535

theorem claimKey_ne_of_ne (hc : channel.Admitted) {p q : ServicePort} (hp : p ∈ channel.ports)
    (hq : q ∈ channel.ports) (hnamed : p.unnamed = false) (hne : p ≠ q) :
    channel.claimKey p ≠ channel.claimKey q := fun h =>
  hne (eq_of_portName_eq hc.names hp hq hnamed (eq_of_claimKey_eq hc hq h).2.1)

theorem nodup_ports_of_admitted (hc : channel.Admitted) : channel.ports.Nodup :=
  List.Nodup.of_map _ hc.names

theorem declared_before {done : List ResolvedPort} {p : ServicePort} (hc : channel.Admitted)
    (hhead : done.map ResolvedPort.port ++ [p] <+: channel.ports) {r : ResolvedPort} (hr : r ∈ done) :
    r.port ∈ channel.ports ∧ p ≠ r.port := by
  refine ⟨hhead.subset (List.mem_append_left _ (List.mem_map_of_mem hr)), ?_⟩
  rintro rfl
  have hnodup := hhead.sublist.nodup (nodup_ports_of_admitted hc)
  rw [List.nodup_append] at hnodup
  exact hnodup.2.2 _ (List.mem_map_of_mem hr) _ (by simp) rfl

theorem resolve_spec (hc : channel.Admitted) (hst : WellKeyed st.claims)
    {resolved : List ResolvedPort}
    (hres : (resolveChannelPorts cfg (allocate cfg) channel st).1 = .ok resolved) :
    ∃ explicitPorts, channelPortClaims cfg channel = .ok explicitPorts ∧
      resolved.map ResolvedPort.port = channel.ports ∧
      ∀ r ∈ resolved, Resolution cfg channel explicitPorts
        (resolveChannelPorts cfg (allocate cfg) channel st).2 r := by
  -- So far: a state with well-keyed claims, in which every resolved port is what it should be.
  let I := fun (explicitPorts : Dict String PortRequest) (done : List ResolvedPort)
      (st : MuxState) => (∀ p ∈ channel.ports, p.unnamed = false) ∧ WellKeyed st.claims ∧
        ∀ r ∈ done, Resolution cfg channel explicitPorts st r
  obtain ⟨e, -, h⟩ | ⟨explicitPorts, resolved', hclaims, ⟨-, -, hall⟩, hok⟩ :=
    resolveChannelPorts_rule cfg channel st I
      (by
        rintro explicitPorts done p st hhead hauto ⟨hnamed, hwk, hdone⟩
        have hp : p ∈ channel.ports := hhead.subset (by simp)
        have hkept : ∀ r ∈ done,
            Resolution cfg channel explicitPorts (allocate cfg channel p st).2 r := by
          refine fun r hr => ⟨fun h => ?_, (hdone r hr).static⟩
          obtain ⟨hr', hne⟩ := declared_before hc hhead hr
          exact ((hdone r hr).auto h).after_allocate
            (claimKey_ne_of_ne hc hp hr' (hnamed p hp) hne)
        refine ⟨fun n hn => ⟨hnamed, wellKeyed_allocate hwk channel p, ?_⟩,
          fun _ _ => ⟨hnamed, wellKeyed_allocate hwk channel p, hkept⟩⟩
        intro r hr
        rcases List.mem_append.mp hr with hr | hr
        · exact hkept r hr
        · obtain rfl := List.mem_singleton.mp hr
          exact ⟨fun _ => held_allocate hc hp hwk hn, fun h => absurd hauto h⟩)
      (by
        rintro explicitPorts done p st - hstatic hlo hhi ⟨hnamed, hwk, hdone⟩
        refine ⟨hnamed, hwk, fun r hr => ?_⟩
        rcases List.mem_append.mp hr with hr | hr
        · exact hdone r hr
        · obtain rfl := List.mem_singleton.mp hr
          exact ⟨fun h => absurd h hstatic, fun _ => ⟨rfl, hlo, hhi⟩⟩)
      (fun explicitPorts hclaims => ⟨(channelPortClaims_eq_ok hclaims).2, hst, by simp⟩)
  · rw [h] at hres
    cases hres
  · obtain ⟨rfl, hports⟩ := hok resolved hres
    exact ⟨explicitPorts, hclaims, hports, hall⟩

/-- Conversely, a channel resolves to ports that are all as they should be already, and the claims
stay as they are. -/
theorem resolve_eq_ok {explicitPorts : Dict String PortRequest} {resolved : List ResolvedPort}
    (hclaims : channelPortClaims cfg channel = .ok explicitPorts)
    (hports : resolved.map ResolvedPort.port = channel.ports)
    (hall : ∀ r ∈ resolved, Resolution cfg channel explicitPorts st r) :
    resolveChannelPorts cfg (allocate cfg) channel st = (.ok resolved, st) := by
  have hrest : ∀ rest : List ResolvedPort,
      (∀ r ∈ rest, Resolution cfg channel explicitPorts st r) →
      resolveDeclaredPorts (allocate cfg) channel explicitPorts (rest.map ResolvedPort.port) st =
        (.ok rest, st) := by
    intro rest
    induction rest with
    | nil => exact fun _ => rfl
    | cons r rest ih =>
      intro hrest
      have hr := hrest r (by simp)
      have hone : resolveChannelExternalPort (some (allocate cfg)) channel explicitPorts r.port st =
          (.ok r.muxPort, st) := by
        by_cases hauto : explicitPorts.get r.port.portName = some .auto
        · rw [resolveChannelExternalPort_auto hauto]
          exact allocate_of_held (hr.auto hauto)
        · obtain ⟨hsame, hok⟩ := resolveChannelExternalPort_static
            (some (allocate cfg)) channel st
            (channelPortClaims_eq_ok hclaims).1 hauto
          exact Prod.ext ((hok r.muxPort).mpr (hr.static hauto)) hsame
      rw [List.map_cons, resolveDeclaredPorts, hone]
      dsimp only
      rw [ih fun q hq => hrest q (List.mem_cons_of_mem _ hq)]
  rw [resolveChannelPorts, hclaims]
  dsimp only
  rw [← hports]
  exact hrest resolved hall

end Resolving

/-! ## Recording a channel -/

section Recording

variable (cfg : Config) (channel : Channel)

def recordedClaim (r : ResolvedPort) : Claim :=
  Claim.ofRef (.fromChannelPort channel r.port) r.port.port r.muxPort
    (recordedMode cfg channel r.port)

/-- The claims of the ports that a channel was given, one after the other. -/
def recordResolved (st : MuxState) (resolved : List ResolvedPort) : MuxState :=
  resolved.foldl (fun st r => st.setClaim (.fromChannelPort channel r.port) r.port.port r.muxPort
    (recordedMode cfg channel r.port)) st

variable {cfg channel} {st : MuxState} {resolved : List ResolvedPort}

theorem nodup_claimKeys (hc : channel.Admitted) (hnamed : ∀ p ∈ channel.ports, p.unnamed = false)
    (hports : resolved.map ResolvedPort.port = channel.ports) :
    (resolved.map fun r => channel.claimKey r.port).Nodup := by
  have hmap : (resolved.map fun r => channel.claimKey r.port) =
      channel.ports.map channel.claimKey := by
    rw [← hports, List.map_map]
    rfl
  rw [hmap]
  refine (nodup_ports_of_admitted hc).map_on fun p hp q hq h => ?_
  by_contra hne
  exact claimKey_ne_of_ne hc hp hq (hnamed p hp) hne h

theorem recordChannelClaims_invariant (P : MuxState → Prop) {st' : MuxState}
    {portsText : String}
    (hP : ∀ st, ∀ p ∈ channel.ports, ∀ muxPort mode, P st →
      P (st.setClaim (.fromChannelPort channel p) p.port muxPort mode))
    (hst : P st) (h : st.recordChannelClaims cfg channel portsText = .ok st') : P st' := by
  unfold recordChannelClaims at h
  split at h
  · cases h
  · rename_i mappings _
    obtain rfl := Except.ok.inj h
    have hfold : ∀ ports ⊆ channel.ports, ∀ st, P st →
        P (ports.foldl (recordPortClaim cfg channel mappings) st) := by
      intro ports
      induction ports with
      | nil => exact fun _ _ h => h
      | cons p ports ih =>
        intro hsub st hst
        refine ih (fun q hq => hsub (List.mem_cons_of_mem _ hq)) _ ?_
        unfold recordPortClaim
        split_ifs
        · exact hst
        · split
          · exact hst
          · split
            · exact hst
            · exact hP st p (hsub (by simp)) _ _ hst
    exact hfold channel.ports (List.Subset.refl _) st hst

section Texts

variable (hc : channel.Admitted) (hnamed : ∀ p ∈ channel.ports, p.unnamed = false)
  (hports : resolved.map ResolvedPort.port = channel.ports)

include hc hnamed hports

theorem plainMapping_of_resolved (hrange : ∀ r ∈ resolved, 1 ≤ r.muxPort ∧ r.muxPort ≤ 65535) :
    ∀ m ∈ resolved.map ResolvedPort.mapping, PlainMapping m := by
  rintro m hm
  obtain ⟨r, hr, rfl⟩ := List.mem_map.mp hm
  have hmem : r.port ∈ channel.ports := hports ▸ List.mem_map_of_mem hr
  refine ⟨?_, ?_, ?_⟩
  · have hname := hnamed _ hmem
    simp only [ServicePort.unnamed, ServicePort.portName] at hname
    change PlainName (r.port.name.getD "")
    cases hn : r.port.name with
    | none => simp [hn] at hname
    | some n => exact plainName_of_isDnsLabel ((hc.ports _ hmem).name n hn)
  · exact le_trans (by decide) (hc.ports _ hmem).port.1
  · exact le_trans (by decide) (hrange r hr).1

theorem nodup_portNames_of_resolved : (resolved.map fun r => r.port.portName).Nodup := by
  have hmap : (resolved.map fun r => r.port.portName) = channel.ports.map ServicePort.portName := by
    rw [← hports, List.map_map]
    rfl
  rw [hmap]
  exact (nodup_ports_of_admitted hc).map_on fun p hp q hq h =>
    eq_of_portName_eq hc.names hp hq (hnamed p hp) h

end Texts

theorem parsePortMappings_portsAnnotationOf (hc : channel.Admitted)
    (hnamed : ∀ p ∈ channel.ports, p.unnamed = false)
    (hports : resolved.map ResolvedPort.port = channel.ports)
    (hrange : ∀ r ∈ resolved, 1 ≤ r.muxPort ∧ r.muxPort ≤ 65535) :
    ∃ mappings, parsePortMappings (portsAnnotationOf resolved) = .ok mappings ∧
      ∀ r ∈ resolved, mappings.get r.port.portName = some (str r.muxPort) := by
  have hnames : ((mappingTexts (resolved.map ResolvedPort.mapping)).map Prod.fst).Nodup := by
    have hmap : (mappingTexts (resolved.map ResolvedPort.mapping)).map Prod.fst =
        resolved.map fun r => r.port.portName := by
      simp [mappingTexts, ResolvedPort.mapping, Function.comp_def]
    rw [hmap]
    exact nodup_portNames_of_resolved hc hnamed hports
  exact ⟨_, parsePortMappings_format (plainMapping_of_resolved hc hnamed hports hrange),
    fun r hr => Dict.get_updateList_of_nodup _ _ hnames
      (List.mem_map.mpr ⟨r.mapping, List.mem_map_of_mem hr, rfl⟩)⟩

theorem recordChannelClaims_eq_ok (hc : channel.Admitted)
    (hnamed : ∀ p ∈ channel.ports, p.unnamed = false)
    (hports : resolved.map ResolvedPort.port = channel.ports)
    (hrange : ∀ r ∈ resolved, 1 ≤ r.muxPort ∧ r.muxPort ≤ 65535) :
    st.recordChannelClaims cfg channel (portsAnnotationOf resolved) =
      .ok (recordResolved cfg channel st resolved) := by
  obtain ⟨mappings, hparse, htext⟩ := parsePortMappings_portsAnnotationOf hc hnamed hports hrange
  rw [recordChannelClaims, hparse]
  dsimp only
  rw [← hports, List.foldl_map]
  congr 1
  refine List.foldl_ext _ _ _ fun st r hr => ?_
  rw [recordPortClaim, hnamed _ (hports ▸ List.mem_map_of_mem hr), htext r hr]
  simp only [validatePortText_str cfg.annotationPorts (hrange r hr), Bool.false_eq_true, if_false]

theorem get_claims_recordResolved_ne {key : String}
    (hkey : ∀ r ∈ resolved, channel.claimKey r.port ≠ key) :
    (recordResolved cfg channel st resolved).claims.get key = st.claims.get key := by
  induction resolved generalizing st with
  | nil => rfl
  | cons r rest ih =>
    refine (ih fun q hq => hkey q (List.mem_cons_of_mem _ hq)).trans ?_
    rw [get_claims_setClaim]
    exact if_neg (hkey r (by simp))

theorem get_claims_recordResolved (hkeys : (resolved.map fun r => channel.claimKey r.port).Nodup)
    {r : ResolvedPort} (hr : r ∈ resolved) :
    (recordResolved cfg channel st resolved).claims.get (channel.claimKey r.port) =
      some (recordedClaim cfg channel r) := by
  induction resolved generalizing st with
  | nil => simp at hr
  | cons q rest ih =>
    rw [List.map_cons, List.nodup_cons] at hkeys
    rcases List.mem_cons.mp hr with rfl | hr
    · have hrest : ∀ q ∈ rest, channel.claimKey q.port ≠ channel.claimKey r.port :=
        fun q hq hkey => hkeys.1 (List.mem_map.mpr ⟨q, hq, hkey⟩)
      refine (get_claims_recordResolved_ne hrest).trans ?_
      rw [get_claims_setClaim]
      exact if_pos rfl
    · exact ih hkeys.2 hr

theorem SoleClaim.after_record {c : Channel} {r : ResolvedPort} (h : st.SoleClaim c r)
    (hkey : ∀ q ∈ resolved, channel.claimKey q.port ≠ c.claimKey r.port)
    (hlistener : ∀ q ∈ resolved, q.key ≠ r.key) :
    (recordResolved cfg channel st resolved).SoleClaim c r := by
  induction resolved generalizing st with
  | nil => exact h
  | cons q rest ih =>
    exact ih (h.after_setClaim (hkey q (by simp)) (hlistener q (by simp)))
      (fun q' hq' => hkey q' (List.mem_cons_of_mem _ hq'))
      fun q' hq' => hlistener q' (List.mem_cons_of_mem _ hq')

@[simp] theorem listener_recordedClaim (r : ResolvedPort) :
    (recordedClaim cfg channel r).listener = some r.key := listener_ofRef _ _ _ _

end Recording

/-! ## Writing the state back -/

section WritingBack

variable {cfg : Config} {st st' st'' : MuxState}

theorem claimsByKey_toState (hwk : WellKeyed st.claims) (hnorm : Normalized st.claims)
    (key : String) :
    (claimsByKey (stateClaims (some st.toState))).get key = st.claims.get key := by
  let sorted := st.claims.entries.insertionSort (·.1 ≤ ·.1)
  have hperm : sorted.Perm st.claims.entries := List.perm_insertionSort _ _
  have hpairs : (sorted.map Prod.snd).map (fun claim => (claim.ref.key, normalizeClaim claim)) =
      sorted := by
    rw [List.map_map]
    refine (List.map_congr_left ?_).trans (List.map_id _)
    rintro ⟨k, claim⟩ hmem
    have hget := (Dict.get_eq_some_iff _ _ _).mpr (hperm.subset hmem)
    simp [hwk k claim hget, hnorm k claim hget]
  have hload : claimsByKey (stateClaims (some st.toState)) = Dict.ofList sorted :=
    congrArg Dict.ofList hpairs
  have hnodup : (sorted.map Prod.fst).Nodup := (hperm.map Prod.fst).nodup_iff.mpr st.claims.nodup
  rw [hload]
  cases hget : st.claims.get key with
  | some claim =>
    exact Dict.get_updateList_of_nodup _ _ hnodup
      (hperm.symm.subset ((Dict.get_eq_some_iff _ _ _).mp hget))
  | none =>
    refine (Dict.get_updateList_of_notMem _ _ _ fun h => ?_).trans (Dict.get_empty key)
    exact (Dict.get_eq_none_iff _ _).mp hget ((hperm.map Prod.fst).subset h)

end WritingBack

end MuxState

end SvcLbMux
