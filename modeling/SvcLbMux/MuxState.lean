import SvcLbMux.ChannelPorts
import SvcLbMux.PortAllocations

namespace SvcLbMux

open Py

structure MuxState where
  muxKey : String × String
  ranges : List (Int × Int)
  activeKeys : List String
  reservedPorts : Finset PortKey
  reservedPortOwners : Dict PortKey String
  claims : Dict String Claim
  changed : Bool

def stateClaims (state : Option StateDoc) : List Claim :=
  match state with
  | none => []
  | some doc =>
    match doc.portClaims with
    | some claims => claims
    | none => doc.allocations.getD []

def stateNeedsClaimWrite (state : Option StateDoc) : Bool :=
  state.any fun doc => doc.portClaims.isNone

/-- A loaded claim: its port as an integer in both fields, and `auto` as the default source. -/
def normalizeClaim (claim : Claim) : Claim :=
  let normalized := match claimMuxPort claim with
    | none => claim
    | some port => { claim with muxPort := some (.number port), port := some (.number port) }
  { normalized with source := normalized.source.or (some (.text autoPort)) }

def claimsByKey (claims : List Claim) : Dict String Claim :=
  Dict.ofList (claims.map fun claim => (claim.ref.key, normalizeClaim claim))

def activeClaimKeys (channels : List Channel) : List String :=
  channels.flatMap fun c => (c.ports.filter fun p => !p.unnamed).map c.claimKey

namespace MuxState

/-- `MuxState.__init__`, the inactive claims being pruned. -/
def init (muxKey : String × String) (ranges : List (Int × Int)) (state : Option StateDoc)
    (channels : List Channel) (reservedPorts : Finset PortKey)
    (reservedPortOwners : Dict PortKey String) : MuxState :=
  let activeKeys := activeClaimKeys channels
  let loaded := claimsByKey (stateClaims state)
  { muxKey := muxKey
    ranges := ranges
    activeKeys := activeKeys
    reservedPorts := reservedPorts
    reservedPortOwners := reservedPortOwners
    claims := loaded.filterKeys fun key => key ∈ activeKeys
    changed := stateNeedsClaimWrite state || loaded.keys.any fun key => key ∉ activeKeys }

variable (cfg : Config) (st : MuxState)

def portOwners : Dict PortKey String :=
  Dict.empty.setDefaults (st.claims.entries.filterMap fun e =>
    e.2.listener.map fun key => (key, claimOwner cfg e.2))

def setClaim (ref : PortAllocationRef) (channelPort muxPort : Int) (mode : String) : MuxState :=
  let claim := Claim.ofRef ref channelPort muxPort mode
  if st.claims.get ref.key ≠ some claim then
    { st with claims := st.claims.set ref.key claim, changed := true }
  else st

def isClaimed (port : Int) (protocol currentKey owner : String) : Bool :=
  (st.claims.entries.any fun e =>
    e.1 ≠ currentKey && (claimMuxPort e.2 = some port && e.2.protocolOrTcp = protocol)) ||
  decide ((port, protocol) ∈ st.reservedPorts) ||
  match st.reservedPortOwners.get (port, protocol) with
  | none => false
  | some reservedOwner => reservedOwner ≠ owner

def usedPortProtocols (owner : String) : Finset PortKey :=
  st.reservedPorts ∪
    ((st.reservedPortOwners.entries.filter fun e => e.2 ≠ owner).map Prod.fst).toFinset ∪
    (st.claims.entries.filterMap fun e => e.2.listener).toFinset

def nextAvailablePort (protocol owner : String) : Except ValueError Int :=
  let used := st.usedPortProtocols owner
  match (rangePorts st.ranges).find? fun port => (port, protocol) ∉ used with
  | some port => .ok port
  | none =>
    .error ⟨"No available " ++ protocol ++ " port in mux port range " ++ formatRanges st.ranges⟩

/-- The port of the existing claim of a reference, if it can be kept. -/
def reusablePort (ref : PortAllocationRef) : Option Int :=
  match st.claims.get ref.key with
  | none => none
  | some existing =>
    match claimMuxPort existing with
    | none => none
    | some existingPort =>
      if containsPort st.ranges existingPort &&
          !st.isClaimed existingPort ref.protocol ref.key (refOwner cfg ref) then
        some existingPort
      else none

/-- Allocate or reuse a mux port for `external-ports: name:auto`. -/
def allocate : Allocate MuxState := fun channel port st =>
  if st.ranges.isEmpty then
    (.error ⟨cfg.annotationExternalPorts ++ " automatic allocation requires a mux port range"⟩, st)
  else
    let ref := PortAllocationRef.fromChannelPort channel port
    match st.reusablePort cfg ref with
    | some existingPort => (.ok existingPort, st)
    | none =>
      match st.nextAvailablePort ref.protocol (refOwner cfg ref) with
      | .error e => (.error e, st)
      | .ok allocated => (.ok allocated, st.setClaim ref port.port allocated autoPort)

/-- `auto` or `static`, as `record_channel_claims` reads it from the annotation. -/
def recordedMode (channel : Channel) (port : ServicePort) : String :=
  if (externalPortModes (channel.annotation cfg.annotationExternalPorts)).get port.portName =
      some autoPort then autoPort
  else "static"

def recordPortClaim (channel : Channel) (mappings : Dict String String) (st : MuxState)
    (port : ServicePort) : MuxState :=
  if port.unnamed then st
  else match mappings.get port.portName with
    | none => st
    | some text =>
      match validatePortText text cfg.annotationPorts with
      | .error _ => st
      | .ok muxPort =>
        st.setClaim (.fromChannelPort channel port) port.port muxPort
          (recordedMode cfg channel port)

/-- Persist the claims of an accepted channel, read back from its annotation text. -/
def recordChannelClaims (channel : Channel) (portsText : String) :
    Except ValueError MuxState :=
  match parsePortMappings portsText with
  | .error e => .error e
  | .ok mappings => .ok (channel.ports.foldl (recordPortClaim cfg channel mappings) st)

def toState : StateDoc :=
  let claims := (st.claims.entries.insertionSort (·.1 ≤ ·.1)).map Prod.snd
  { mux := some (some st.muxKey.1, some st.muxKey.2)
    portClaims := some claims
    allocations := some (claims.filter fun claim => claim.source = some (.text autoPort)) }

/-- Everything that a pass does not change: what its claims are read against. -/
def fixed (st : MuxState) : MuxState := { st with claims := Dict.empty, changed := false }

theorem ranges_of_fixed {st st' : MuxState} (h : st'.fixed = st.fixed) :
    st'.ranges = st.ranges := by
  have h' : st'.fixed.ranges = st.fixed.ranges := by rw [h]
  exact h'

theorem reservedPorts_of_fixed {st st' : MuxState} (h : st'.fixed = st.fixed) :
    st'.reservedPorts = st.reservedPorts := by
  have h' : st'.fixed.reservedPorts = st.fixed.reservedPorts := by rw [h]
  exact h'

theorem reservedPortOwners_of_fixed {st st' : MuxState} (h : st'.fixed = st.fixed) :
    st'.reservedPortOwners = st.reservedPortOwners := by
  have h' : st'.fixed.reservedPortOwners = st.fixed.reservedPortOwners := by rw [h]
  exact h'

end MuxState

/-- Every claim is filed under the key of its own reference. -/
def WellKeyed (claims : Dict String Claim) : Prop :=
  ∀ key claim, claims.get key = some claim → claim.ref.key = key

def ClaimsExclusive (claims : Dict String Claim) : Prop :=
  ∀ key key' claim claim' listener, claims.get key = some claim → claims.get key' = some claim' →
    claim.listener = some listener → claim'.listener = some listener → key = key'

namespace MuxState

/-! ## Reading the state -/

section Reading

variable {cfg : Config} {st : MuxState}

theorem listener_eq_some_iff {claim : Claim} {port : Int} {protocol : String} :
    claim.listener = some (port, protocol) ↔
      claimMuxPort claim = some port ∧ claim.protocolOrTcp = protocol := by
  rw [Claim.listener, Option.map_eq_some_iff]
  constructor
  · rintro ⟨n, hn, heq⟩
    obtain ⟨rfl, rfl⟩ := Prod.mk.inj heq
    exact ⟨hn, rfl⟩
  · rintro ⟨hn, rfl⟩
    exact ⟨port, hn, rfl⟩

theorem isClaimed_eq_false_iff {port : Int} {protocol currentKey owner : String} :
    st.isClaimed port protocol currentKey owner = false ↔
      (∀ key claim, st.claims.get key = some claim → claim.listener = some (port, protocol) →
        key = currentKey) ∧
      (port, protocol) ∉ st.reservedPorts ∧
      ∀ o, st.reservedPortOwners.get (port, protocol) = some o → o = owner := by
  have hclaims : (st.claims.entries.any fun e =>
      e.1 ≠ currentKey && (claimMuxPort e.2 = some port && e.2.protocolOrTcp = protocol)) = false ↔
      ∀ key claim, st.claims.get key = some claim → claim.listener = some (port, protocol) →
        key = currentKey := by
    rw [List.any_eq_false]
    constructor
    · intro h key claim hget hl
      by_contra hne
      have hmem := (Dict.get_eq_some_iff _ _ _).mp hget
      obtain ⟨hp, hproto⟩ := listener_eq_some_iff.mp hl
      exact h _ hmem (by simp [hne, hp, hproto])
    · rintro h ⟨key, claim⟩ hmem hall
      simp only [ne_eq, decide_not, Bool.and_eq_true, Bool.not_eq_true', decide_eq_false_iff_not,
        decide_eq_true_eq] at hall
      exact hall.1 (h key claim ((Dict.get_eq_some_iff _ _ _).mpr hmem)
        (listener_eq_some_iff.mpr hall.2))
  rw [isClaimed, Bool.or_eq_false_iff, Bool.or_eq_false_iff, hclaims, decide_eq_false_iff_not,
    and_assoc]
  refine and_congr_right fun _ => and_congr_right fun _ => ?_
  cases st.reservedPortOwners.get (port, protocol) with
  | none => simp
  | some o => simp

theorem mem_usedPortProtocols {key : PortKey} {owner : String} :
    key ∈ st.usedPortProtocols owner ↔
      key ∈ st.reservedPorts ∨ (∃ o, st.reservedPortOwners.get key = some o ∧ o ≠ owner) ∨
        ∃ k claim, st.claims.get k = some claim ∧ claim.listener = some key := by
  simp only [usedPortProtocols, Finset.mem_union, List.mem_toFinset, List.mem_map,
    List.mem_filter, List.mem_filterMap, Dict.get_eq_some_iff, decide_eq_true_eq, or_assoc]
  refine or_congr_right (or_congr ?_ ?_)
  · constructor
    · rintro ⟨⟨k, o⟩, ⟨hmem, hne⟩, rfl⟩
      exact ⟨o, hmem, hne⟩
    · rintro ⟨o, hmem, hne⟩
      exact ⟨(key, o), ⟨hmem, hne⟩, rfl⟩
  · constructor
    · rintro ⟨⟨k, claim⟩, hmem, hl⟩
      exact ⟨k, claim, hmem, hl⟩
    · rintro ⟨k, claim, hmem, hl⟩
      exact ⟨(k, claim), hmem, hl⟩

theorem nextAvailablePort_eq_ok_iff {protocol owner : String} {port : Int} :
    st.nextAvailablePort protocol owner = .ok port ↔
      (rangePorts st.ranges).find? (fun port => (port, protocol) ∉ st.usedPortProtocols owner) =
        some port := by
  unfold nextAvailablePort
  dsimp only
  split
  · rename_i found hfound
    rw [hfound, Except.ok.injEq, Option.some.injEq]
  · rename_i hnone
    rw [hnone]
    simp

theorem nextAvailablePort_eq_ok {protocol owner : String} {port : Int}
    (h : st.nextAvailablePort protocol owner = .ok port) :
    containsPort st.ranges port = true ∧ (port, protocol) ∉ st.usedPortProtocols owner := by
  have hfound := nextAvailablePort_eq_ok_iff.mp h
  refine ⟨(mem_rangePorts _ _).mp (List.mem_of_find?_eq_some hfound), ?_⟩
  simpa using List.find?_some hfound

/-- What `reusablePort` checks of the claim of a reference. -/
theorem reusablePort_eq_some_iff {ref : PortAllocationRef} {port : Int} :
    st.reusablePort cfg ref = some port ↔
      (∃ claim, st.claims.get ref.key = some claim ∧ claimMuxPort claim = some port) ∧
        containsPort st.ranges port = true ∧
        st.isClaimed port ref.protocol ref.key (refOwner cfg ref) = false := by
  unfold reusablePort
  cases st.claims.get ref.key with
  | none => simp
  | some claim =>
    dsimp only
    cases hport : claimMuxPort claim with
    | none => simp [hport]
    | some n =>
      simp only [Bool.and_eq_true, Bool.not_eq_true', Option.ite_none_right_eq_some,
        Option.some.injEq, exists_eq_left', hport]
      constructor
      · rintro ⟨⟨hin, hfree⟩, rfl⟩
        exact ⟨rfl, hin, hfree⟩
      · rintro ⟨rfl, hin, hfree⟩
        exact ⟨⟨hin, hfree⟩, rfl⟩

end Reading

/-! ## What the operations do to the claims -/

section Writing

variable {cfg : Config} {st : MuxState}

theorem get_claims_setClaim (ref : PortAllocationRef) (channelPort muxPort : Int)
    (mode key : String) :
    (st.setClaim ref channelPort muxPort mode).claims.get key =
      if ref.key = key then some (Claim.ofRef ref channelPort muxPort mode)
      else st.claims.get key := by
  unfold setClaim
  dsimp only
  split_ifs with hchanged hkey hkey
  · simp [hkey]
  · simp [hkey]
  · rw [← hkey, not_not.mp hchanged]
  · rfl

@[simp] theorem fixed_setClaim (st : MuxState) (ref : PortAllocationRef) (channelPort muxPort : Int)
    (mode : String) : (st.setClaim ref channelPort muxPort mode).fixed = st.fixed := by
  unfold setClaim
  dsimp only
  split_ifs <;> rfl

theorem wellKeyed_setClaim (h : WellKeyed st.claims) (ref : PortAllocationRef)
    (channelPort muxPort : Int) (mode : String) :
    WellKeyed (st.setClaim ref channelPort muxPort mode).claims := by
  intro key claim hget
  rw [get_claims_setClaim] at hget
  split_ifs at hget with hkey
  · obtain rfl := Option.some.inj hget
    exact hkey
  · exact h key claim hget

/-- All that `allocate` can do: refuse, keep the claim it finds, or claim a port that nobody uses. -/
theorem allocate_cases (cfg : Config) (st : MuxState) (channel : Channel) (p : ServicePort) :
    (∃ e, allocate cfg channel p st = (.error e, st)) ∨
    (∃ n, st.reusablePort cfg (.fromChannelPort channel p) = some n ∧
      allocate cfg channel p st = (.ok n, st)) ∨
    ∃ n, st.reusablePort cfg (.fromChannelPort channel p) = none ∧
      containsPort st.ranges n = true ∧
      (n, p.protocolOrTcp) ∉ st.usedPortProtocols (channel.owner cfg p) ∧
      allocate cfg channel p st =
        (.ok n, st.setClaim (.fromChannelPort channel p) p.port n autoPort) := by
  unfold allocate
  split_ifs
  · exact Or.inl ⟨_, rfl⟩
  · dsimp only
    cases hreuse : st.reusablePort cfg (.fromChannelPort channel p) with
    | some n => exact Or.inr (Or.inl ⟨n, rfl, rfl⟩)
    | none =>
      dsimp only
      cases hnext : st.nextAvailablePort (PortAllocationRef.fromChannelPort channel p).protocol
          (refOwner cfg (.fromChannelPort channel p)) with
      | error e => exact Or.inl ⟨e, rfl⟩
      | ok n =>
        obtain ⟨hin, hfree⟩ := nextAvailablePort_eq_ok hnext
        rw [refOwner_fromChannelPort] at hfree
        exact Or.inr (Or.inr ⟨n, rfl, hin, hfree, rfl⟩)

theorem fixed_allocate (channel : Channel) (p : ServicePort) :
    (allocate cfg channel p st).2.fixed = st.fixed := by
  obtain ⟨e, h⟩ | ⟨n, -, h⟩ | ⟨n, -, -, -, h⟩ := allocate_cases cfg st channel p
  · rw [h]
  · rw [h]
  · rw [h, fixed_setClaim]

/-- `allocate` touches the claim of its own port only. -/
theorem get_claims_allocate_ne (channel : Channel) (p : ServicePort) {key : String}
    (hkey : channel.claimKey p ≠ key) :
    (allocate cfg channel p st).2.claims.get key = st.claims.get key := by
  obtain ⟨e, h⟩ | ⟨n, -, h⟩ | ⟨n, -, -, -, h⟩ := allocate_cases cfg st channel p
  · rw [h]
  · rw [h]
  · rw [h, get_claims_setClaim]
    exact if_neg hkey

theorem wellKeyed_allocate (hst : WellKeyed st.claims) (channel : Channel) (p : ServicePort) :
    WellKeyed (allocate cfg channel p st).2.claims := by
  obtain ⟨e, h⟩ | ⟨n, -, h⟩ | ⟨n, -, -, -, h⟩ := allocate_cases cfg st channel p
  · rwa [h]
  · rwa [h]
  · rw [h]
    exact wellKeyed_setClaim hst _ _ _ _

theorem claimsExclusive_allocate (hst : ClaimsExclusive st.claims) (channel : Channel)
    (p : ServicePort) : ClaimsExclusive (allocate cfg channel p st).2.claims := by
  obtain ⟨e, h⟩ | ⟨n, -, h⟩ | ⟨n, -, -, hfree, h⟩ :=
    allocate_cases cfg st channel p
  · rwa [h]
  · rwa [h]
  · rw [h]
    have hunused : ∀ key claim, st.claims.get key = some claim →
        claim.listener ≠ some (n, p.protocolOrTcp) := fun key claim hget hl =>
      hfree (mem_usedPortProtocols.mpr (Or.inr (Or.inr ⟨key, claim, hget, hl⟩)))
    intro key key' claim claim' listener hget hget' hl hl'
    rw [get_claims_setClaim] at hget hget'
    split_ifs at hget hget' with hkey hkey' hkey'
    · exact hkey.symm.trans hkey'
    · obtain rfl := Option.some.inj hget
      rw [listener_ofRef] at hl
      exact absurd (hl'.trans hl.symm) (hunused key' claim' hget')
    · obtain rfl := Option.some.inj hget'
      rw [listener_ofRef] at hl'
      exact absurd (hl.trans hl'.symm) (hunused key claim hget)
    · exact hst key key' claim claim' listener hget hget' hl hl'

end Writing

/-! ## Allocated ports -/

section Held

structure SoleClaim (st : MuxState) (channel : Channel) (r : ResolvedPort) : Prop where
  claimed : ∃ claim, st.claims.get (channel.claimKey r.port) = some claim ∧
    claim.listener = some r.key
  alone : ∀ key claim, st.claims.get key = some claim → claim.listener = some r.key →
    key = channel.claimKey r.port

/-- A channel holds a mux port that was allocated to it, and nothing stands against it. -/
structure Held (cfg : Config) (st : MuxState) (channel : Channel) (r : ResolvedPort) : Prop
    extends st.SoleClaim channel r where
  inRange : containsPort st.ranges r.muxPort = true
  unreserved : r.key ∉ st.reservedPorts
  undisputed : ∀ o, st.reservedPortOwners.get r.key = some o → o = channel.owner cfg r.port

variable {cfg : Config} {st : MuxState} {channel : Channel}

theorem reusablePort_of_held {r : ResolvedPort} (h : st.Held cfg channel r) :
    st.reusablePort cfg (.fromChannelPort channel r.port) = some r.muxPort := by
  obtain ⟨claim, hget, hl⟩ := h.claimed
  refine reusablePort_eq_some_iff.mpr ⟨⟨claim, hget, (listener_eq_some_iff.mp hl).1⟩, h.inRange,
    isClaimed_eq_false_iff.mpr ⟨h.alone, h.unreserved, ?_⟩⟩
  intro o ho
  rw [refOwner_fromChannelPort]
  exact h.undisputed o ho

theorem ranges_ne_nil_of_containsPort {ranges : List (Int × Int)} {port : Int}
    (h : containsPort ranges port = true) : ranges.isEmpty = false := by
  cases ranges with
  | nil => simp [containsPort] at h
  | cons r rs => rfl

theorem allocate_of_reusablePort {p : ServicePort} {n : Int}
    (h : st.reusablePort cfg (.fromChannelPort channel p) = some n) :
    allocate cfg channel p st = (.ok n, st) := by
  have hrange := ranges_ne_nil_of_containsPort (reusablePort_eq_some_iff.mp h).2.1
  unfold allocate
  simp [hrange, h]

theorem allocate_of_held {r : ResolvedPort} (h : st.Held cfg channel r) :
    allocate cfg channel r.port st = (.ok r.muxPort, st) :=
  allocate_of_reusablePort (reusablePort_of_held h)

/-- What `allocate` grants is held. -/
theorem held_allocate (hc : channel.Admitted) {p : ServicePort} (hp : p ∈ channel.ports)
    (hst : WellKeyed st.claims) {n : Int} (hok : (allocate cfg channel p st).1 = .ok n) :
    (allocate cfg channel p st).2.Held cfg channel ⟨p, n⟩ := by
  obtain ⟨e, h⟩ | ⟨m, hreuse, h⟩ | ⟨m, -, hin, hfree, h⟩ :=
    allocate_cases cfg st channel p
  · simp [h] at hok
  · rw [h] at hok ⊢
    obtain rfl := Except.ok.inj hok
    -- The claim that is kept is on the port's protocol, since its key names it.
    obtain ⟨⟨claim, hget, hport⟩, hin, hfree⟩ := reusablePort_eq_some_iff.mp hreuse
    obtain ⟨halone, hunreserved, howner⟩ := isClaimed_eq_false_iff.mp hfree
    rw [refOwner_fromChannelPort] at howner
    refine ⟨⟨⟨claim, hget, listener_eq_some_iff.mpr ⟨hport, ?_⟩⟩, halone⟩, hin, hunreserved, howner⟩
    exact congrArg PortAllocationRef.protocol (ref_eq_of_claimKey_eq _ hc hp (hst _ _ hget))
  · rw [h] at hok ⊢
    obtain rfl := Except.ok.inj hok
    rw [mem_usedPortProtocols] at hfree
    push Not at hfree
    obtain ⟨hunreserved, howner, hunclaimed⟩ := hfree
    have hfixed := fixed_setClaim st (.fromChannelPort channel p) p.port m autoPort
    refine ⟨⟨⟨_, by rw [get_claims_setClaim]; exact if_pos rfl, listener_ofRef _ _ _ _⟩, ?_⟩, ?_, ?_,
      ?_⟩
    · intro key claim hget hl
      rw [get_claims_setClaim] at hget
      split_ifs at hget with hkey
      · exact hkey.symm
      · exact absurd hl (hunclaimed key claim hget)
    · rw [ranges_of_fixed hfixed]
      exact hin
    · rw [reservedPorts_of_fixed hfixed]
      exact hunreserved
    · rw [reservedPortOwners_of_fixed hfixed]
      exact howner

theorem SoleClaim.after_setClaim {r : ResolvedPort} (h : st.SoleClaim channel r)
    {ref : PortAllocationRef} {channelPort muxPort : Int} {mode : String}
    (hkey : ref.key ≠ channel.claimKey r.port) (hlistener : (muxPort, ref.protocol) ≠ r.key) :
    (st.setClaim ref channelPort muxPort mode).SoleClaim channel r := by
  obtain ⟨claim, hget, hl⟩ := h.claimed
  refine ⟨⟨claim, ?_, hl⟩, fun key claim' hget' hl' => ?_⟩
  · rw [get_claims_setClaim, if_neg hkey]
    exact hget
  · rw [get_claims_setClaim] at hget'
    split_ifs at hget' with hk
    · obtain rfl := Option.some.inj hget'
      rw [listener_ofRef] at hl'
      exact absurd (Option.some.inj hl') hlistener
    · exact h.alone key claim' hget' hl'

theorem SoleClaim.after_allocate {r : ResolvedPort} (h : st.SoleClaim channel r) {d : Channel}
    {p : ServicePort} (hkey : d.claimKey p ≠ channel.claimKey r.port) :
    (allocate cfg d p st).2.SoleClaim channel r := by
  obtain ⟨e, ha⟩ | ⟨n, -, ha⟩ | ⟨n, -, -, hfree, ha⟩ := allocate_cases cfg st d p
  · rwa [ha]
  · rwa [ha]
  · rw [ha]
    obtain ⟨claim, hget, hl⟩ := h.claimed
    refine h.after_setClaim hkey fun hlistener => hfree (mem_usedPortProtocols.mpr ?_)
    exact Or.inr (Or.inr ⟨_, claim, hget, hl.trans (congrArg some hlistener.symm)⟩)

theorem held_of_fixed {st' : MuxState} {r : ResolvedPort} (h : st.Held cfg channel r)
    (hfixed : st'.fixed = st.fixed) (hsole : st'.SoleClaim channel r) : st'.Held cfg channel r := by
  refine ⟨hsole, ?_, ?_, ?_⟩
  · rw [ranges_of_fixed hfixed]
    exact h.inRange
  · rw [reservedPorts_of_fixed hfixed]
    exact h.unreserved
  · rw [reservedPortOwners_of_fixed hfixed]
    exact h.undisputed

theorem Held.after_allocate {r : ResolvedPort} (h : st.Held cfg channel r) {d : Channel}
    {p : ServicePort} (hkey : d.claimKey p ≠ channel.claimKey r.port) :
    (allocate cfg d p st).2.Held cfg channel r :=
  held_of_fixed h (fixed_allocate d p) (h.toSoleClaim.after_allocate hkey)

end Held

end MuxState

end SvcLbMux
