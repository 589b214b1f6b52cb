import SvcLbMux.Library.Json
import SvcLbMux.Library.Simulation
import SvcLbMux.Allocator

namespace SvcLbMux

open Py

/-- `int(value)`, as it raises. -/
def FieldValue.int : FieldValue → Except Exception Int
  | .null => .error .typeError
  | .number x => .ok (x.num.tdiv x.den)
  | .text s =>
    match Py.int s with
    | none => .error (.valueError (intError s))
    | some n => .ok n
  | .other _ => .error .typeError

/-- `int(allocation["port"])`. -/
def allocationPort (allocation : Claim) : Except Exception Int :=
  match allocation.port with
  | none => .error (.keyError "port")
  | some port => port.int

/-- `allocation["protocol"]`. -/
def allocationProtocol (allocation : Claim) : Except Exception String :=
  match allocation.protocol with
  | none => .error (.keyError "protocol")
  | some protocol => .ok protocol

def allocationsByKey (state : Option StateDoc) : Dict String Claim :=
  Dict.ofList (((state.bind StateDoc.allocations).getD []).map fun allocation =>
    (allocation.ref.key, allocation))

structure PortAllocator where
  muxKey : String × String
  ranges : List (Int × Int)
  allocations : Dict String Claim
  reservedPorts : Finset PortKey
  activeKeys : Finset String
  changed : Bool

namespace PortAllocator

/-- `PortAllocator.__init__`; without active keys nothing is pruned. -/
def init (muxKey : String × String) (ranges : List (Int × Int)) (state : Option StateDoc)
    (reservedPorts : Finset PortKey) (activeKeys : Option (Finset String)) : PortAllocator :=
  let loaded := allocationsByKey state
  let allocations := match activeKeys with
    | none => loaded
    | some active => loaded.filterKeys fun key => key ∈ active
  { muxKey := muxKey
    ranges := ranges
    allocations := allocations
    reservedPorts := reservedPorts
    activeKeys := activeKeys.getD ∅
    changed := allocations.keys.toFinset ≠ loaded.keys.toFinset }

variable (cfg : Config)

/-- The loop of `_is_claimed`; the protocol is only read where the port is the same. -/
def claimedAmong (port : Int) (protocol : String) : List Claim → Except Exception Bool
  | [] => .ok false
  | allocation :: allocations =>
    match allocationPort allocation with
    | .error e => .error e
    | .ok allocated =>
      if allocated = port then
        match allocationProtocol allocation with
        | .error e => .error e
        | .ok allocatedProtocol =>
          if allocatedProtocol = protocol then .ok true else claimedAmong port protocol allocations
      else claimedAmong port protocol allocations

variable (a : PortAllocator)

def isClaimed (port : Int) (protocol currentKey : String) : Except Exception Bool :=
  match claimedAmong port protocol
      ((a.allocations.entries.filter fun e => e.1 ≠ currentKey).map Prod.snd) with
  | .error e => .error e
  | .ok true => .ok true
  | .ok false => .ok (decide ((port, protocol) ∈ a.reservedPorts))

def allocationListener (allocation : Claim) : Except Exception PortKey :=
  match allocationPort allocation with
  | .error e => .error e
  | .ok port =>
    match allocationProtocol allocation with
    | .error e => .error e
    | .ok protocol => .ok (port, protocol)

def usedPortProtocols : Except Exception (Finset PortKey) :=
  ((a.allocations.entries.map Prod.snd).mapM allocationListener).map fun listeners =>
    a.reservedPorts ∪ listeners.toFinset

def nextAvailablePort (protocol : String) : Except Exception Int :=
  match a.usedPortProtocols with
  | .error e => .error e
  | .ok used =>
    match (rangePorts a.ranges).find? fun port => (port, protocol) ∉ used with
    | some port => .ok port
    | none => .error (.valueError ("No available " ++ protocol ++ " port in " ++
        cfg.annotationPortRange ++ " " ++ formatRanges a.ranges))

/-- The port of the existing allocation of a reference, if it can be kept. -/
def reusablePort (ref : PortAllocationRef) : Except Exception (Option Int) :=
  match a.allocations.get ref.key with
  | none => .ok none
  | some existing =>
    match allocationPort existing with
    | .error e => .error e
    | .ok existingPort =>
      if containsPort a.ranges existingPort then
        match a.isClaimed existingPort ref.protocol ref.key with
        | .error e => .error e
        | .ok claimed => .ok (if claimed then none else some existingPort)
      else .ok none

/-- The allocation that `allocate` stores. -/
def allocationOf (ref : PortAllocationRef) (allocated : Int) : Claim where
  namespace_ := ref.namespace_
  service := ref.service
  portName := ref.portName
  protocol := some ref.protocol
  channelPort := none
  muxPort := none
  port := some (.number allocated)
  source := some (.text autoPort)
  extra := []

/-- `allocate(channel, port)`, with the allocator after it. -/
def allocate (a : PortAllocator) (channel : Channel) (port : ServicePort) :
    Except Exception Int × PortAllocator :=
  if a.ranges.isEmpty then
    (.error (.valueError
      (cfg.annotationPortRange ++ " is required when external port is auto")), a)
  else
    let ref := PortAllocationRef.fromChannelPort channel port
    let active := { a with activeKeys := insert ref.key a.activeKeys }
    match a.reusablePort ref with
    | .error e => (.error e, active)
    | .ok (some existingPort) => (.ok existingPort, active)
    | .ok none =>
      match a.nextAvailablePort cfg ref.protocol with
      | .error e => (.error e, active)
      | .ok allocated =>
        (.ok allocated, { active with
          allocations := a.allocations.set ref.key (allocationOf ref allocated)
          changed := true })

def pruneInactive : PortAllocator :=
  let kept := a.allocations.filterKeys fun key => key ∈ a.activeKeys
  { a with
    allocations := kept
    changed := a.changed || decide (kept.keys.toFinset ≠ a.allocations.keys.toFinset) }

def toState : StateDoc where
  mux := some (some a.muxKey.1, some a.muxKey.2)
  portClaims := none
  allocations := some ((a.pruneInactive.allocations.entries.insertionSort (·.1 ≤ ·.1)).map Prod.snd)

def portOf (key : String) : Option (Option Int) :=
  (a.allocations.get key).map fun allocation => (allocationPort allocation).toOption

end PortAllocator

/-- The port that a key has; a claim may be without a readable one. -/
def MuxState.portOf (st : MuxState) (key : String) : Option (Option Int) :=
  (st.claims.get key).map claimMuxPort

/-! ## Reading legible allocations -/

theorem FieldValue.int_eq_ok_iff {value : FieldValue} {n : Int} :
    value.int = .ok n ↔ value.toInt = some n := by
  cases value with
  | text s => cases h : Py.int s <;> simp [FieldValue.int, FieldValue.toInt, h]
  | _ => simp [FieldValue.int, FieldValue.toInt]

theorem allocationPort_eq_ok_iff {allocation : Claim} {n : Int} :
    allocationPort allocation = .ok n ↔ allocation.port.bind FieldValue.toInt = some n := by
  unfold allocationPort
  cases allocation.port with
  | none => simp
  | some port => exact FieldValue.int_eq_ok_iff

namespace PortAllocator

theorem allocationListener_eq_ok_iff {allocation : Claim} {listener : PortKey} :
    allocationListener allocation = .ok listener ↔
      allocationPort allocation = .ok listener.1 ∧
        allocationProtocol allocation = .ok listener.2 := by
  unfold allocationListener
  cases allocationPort allocation with
  | error e => simp
  | ok port =>
    cases allocationProtocol allocation with
    | error e => simp
    | ok protocol => simp [Prod.ext_iff]

theorem claimedAmong_eq_ok (port : Int) (protocol : String) {allocations : List Claim}
    (h : ∀ allocation ∈ allocations, ∃ listener, allocationListener allocation = .ok listener) :
    ∃ claimed, claimedAmong port protocol allocations = .ok claimed ∧
      (claimed = true ↔
        ∃ allocation ∈ allocations, allocationListener allocation = .ok (port, protocol)) := by
  induction allocations with
  | nil => exact ⟨false, rfl, by simp⟩
  | cons allocation allocations ih =>
    obtain ⟨listener, hlistener⟩ := h allocation (by simp)
    obtain ⟨claimed, hclaimed, hiff⟩ := ih fun e he => h e (List.mem_cons_of_mem _ he)
    obtain ⟨hport, hprotocol⟩ := allocationListener_eq_ok_iff.mp hlistener
    simp only [claimedAmong, hport, hprotocol, List.mem_cons, exists_eq_or_imp, hlistener,
      Except.ok.injEq]
    split_ifs with hp hproto
    · exact ⟨true, rfl, iff_of_true rfl (Or.inl (Prod.ext hp hproto))⟩
    · refine ⟨claimed, hclaimed, hiff.trans (or_iff_right fun heq => ?_).symm⟩
      exact hproto (congrArg Prod.snd heq)
    · refine ⟨claimed, hclaimed, hiff.trans (or_iff_right fun heq => ?_).symm⟩
      exact hp (congrArg Prod.fst heq)

section Legible

variable {cfg : Config} {a : PortAllocator}
  (h : ∀ key allocation, a.allocations.get key = some allocation →
    ∃ listener, allocationListener allocation = .ok listener)

include h

theorem isClaimed_eq_ok (port : Int) (protocol currentKey : String) :
    ∃ claimed, a.isClaimed port protocol currentKey = .ok claimed ∧ (claimed = false ↔
      (∀ key allocation, a.allocations.get key = some allocation →
        allocationListener allocation = .ok (port, protocol) → key = currentKey) ∧
      (port, protocol) ∉ a.reservedPorts) := by
  have hmem : ∀ allocation, allocation ∈
      (a.allocations.entries.filter fun e => e.1 ≠ currentKey).map Prod.snd ↔
        ∃ key, a.allocations.get key = some allocation ∧ key ≠ currentKey := by
    intro allocation
    simp only [List.mem_map, List.mem_filter, decide_eq_true_eq, Prod.exists,
      exists_eq_right, Dict.get_eq_some_iff]
  obtain ⟨claimed, hclaimed, hiff⟩ := claimedAmong_eq_ok port protocol fun allocation hothers => by
    obtain ⟨key, hget, -⟩ := (hmem allocation).mp hothers
    exact h key allocation hget
  have hnone : claimed = false ↔ ∀ key allocation, a.allocations.get key = some allocation →
      allocationListener allocation = .ok (port, protocol) → key = currentKey := by
    rw [← Bool.not_eq_true, hiff]
    constructor
    · intro hno key allocation hget hl
      by_contra hne
      exact hno ⟨allocation, (hmem allocation).mpr ⟨key, hget, hne⟩, hl⟩
    · rintro hall ⟨allocation, hallocation, hl⟩
      obtain ⟨key, hget, hne⟩ := (hmem allocation).mp hallocation
      exact hne (hall key allocation hget hl)
  rw [isClaimed, hclaimed, ← hnone]
  cases claimed with
  | true => exact ⟨true, rfl, by simp⟩
  | false => exact ⟨_, rfl, by simp⟩

theorem usedPortProtocols_eq_ok :
    ∃ used, a.usedPortProtocols = .ok used ∧ ∀ listener, listener ∈ used ↔
      listener ∈ a.reservedPorts ∨ ∃ key allocation, a.allocations.get key = some allocation ∧
        allocationListener allocation = .ok listener := by
  have hmem : ∀ allocation, allocation ∈ a.allocations.entries.map Prod.snd ↔
      ∃ key, a.allocations.get key = some allocation := by
    intro allocation
    simp only [List.mem_map, Prod.exists, exists_eq_right, Dict.get_eq_some_iff]
  obtain ⟨listeners, hlisteners⟩ := Loop.mapM_ok_iff.mpr fun allocation hallocation => by
    obtain ⟨key, hget⟩ := (hmem allocation).mp hallocation
    exact h key allocation hget
  refine ⟨a.reservedPorts ∪ listeners.toFinset, by rw [usedPortProtocols, hlisteners]; rfl, ?_⟩
  intro listener
  rw [Finset.mem_union, List.mem_toFinset, Loop.mem_of_mapM hlisteners]
  refine or_congr_right ?_
  simp only [hmem]
  constructor
  · rintro ⟨allocation, ⟨key, hget⟩, hl⟩
    exact ⟨key, allocation, hget, hl⟩
  · rintro ⟨key, allocation, hget, hl⟩
    exact ⟨allocation, ⟨key, hget⟩, hl⟩

end Legible

end PortAllocator

/-! ## Simulation -/

def SameListener (allocation claim : Claim) : Prop :=
  ∃ listener, PortAllocator.allocationListener allocation = .ok listener ∧
    claim.listener = some listener

/-- The claims of a mux stand where the legacy allocations do. -/
structure Simulates (st : MuxState) (a : PortAllocator) : Prop where
  ranges : st.ranges = a.ranges
  reserved : st.reservedPorts = a.reservedPorts
  undisputed : st.reservedPortOwners = Dict.empty
  claims : ∀ key, Option.Rel SameListener (a.allocations.get key) (st.claims.get key)

def SameOutcome (legacy : Except Exception Int) (outcome : Except ValueError Int) : Prop :=
  legacy.toOption = outcome.toOption

namespace Simulates

variable {cfg : Config} {st : MuxState} {a : PortAllocator} (h : Simulates st a)

include h

theorem claim_of_allocation {key : String} {allocation : Claim}
    (hget : a.allocations.get key = some allocation) :
    ∃ claim, st.claims.get key = some claim ∧ SameListener allocation claim := by
  have hrel := h.claims key
  rw [hget] at hrel
  cases hclaim : st.claims.get key with
  | none => rw [hclaim] at hrel; cases hrel
  | some claim =>
    rw [hclaim] at hrel
    cases hrel with
    | some hsame => exact ⟨claim, rfl, hsame⟩

theorem allocation_of_claim {key : String} {claim : Claim}
    (hget : st.claims.get key = some claim) :
    ∃ allocation, a.allocations.get key = some allocation ∧ SameListener allocation claim := by
  have hrel := h.claims key
  rw [hget] at hrel
  cases hallocation : a.allocations.get key with
  | none => rw [hallocation] at hrel; cases hrel
  | some allocation =>
    rw [hallocation] at hrel
    cases hrel with
    | some hsame => exact ⟨allocation, rfl, hsame⟩

theorem legible (key : String) (allocation : Claim)
    (hget : a.allocations.get key = some allocation) :
    ∃ listener, PortAllocator.allocationListener allocation = .ok listener := by
  obtain ⟨claim, -, listener, hl, -⟩ := h.claim_of_allocation hget
  exact ⟨listener, hl⟩

theorem on_listener_iff (P : String → Prop) (listener : PortKey) :
    (∀ key allocation, a.allocations.get key = some allocation →
      PortAllocator.allocationListener allocation = .ok listener → P key) ↔
    ∀ key claim, st.claims.get key = some claim → claim.listener = some listener → P key := by
  constructor
  · intro hall key claim hget hl
    obtain ⟨allocation, hallocation, listener', hl', hclaim⟩ := h.allocation_of_claim hget
    obtain rfl := Option.some.inj (hclaim.symm.trans hl)
    exact hall key allocation hallocation hl'
  · intro hall key allocation hget hl
    obtain ⟨claim, hclaim, listener', hl', hlistener⟩ := h.claim_of_allocation hget
    obtain rfl := Except.ok.inj (hl'.symm.trans hl)
    exact hall key claim hclaim hlistener

theorem isClaimed_eq (port : Int) (protocol currentKey owner : String) :
    a.isClaimed port protocol currentKey = .ok (st.isClaimed port protocol currentKey owner) := by
  obtain ⟨claimed, hclaimed, hfalse⟩ :=
    PortAllocator.isClaimed_eq_ok h.legible port protocol currentKey
  have hsame : claimed = false ↔ st.isClaimed port protocol currentKey owner = false := by
    rw [hfalse, MuxState.isClaimed_eq_false_iff, h.on_listener_iff (· = currentKey), h.reserved,
      h.undisputed]
    simp
  rw [hclaimed, Except.ok.injEq, Bool.eq_iff_iff, ← not_iff_not, Bool.not_eq_true,
    Bool.not_eq_true]
  exact hsame

theorem usedPortProtocols_eq (owner : String) :
    a.usedPortProtocols = .ok (st.usedPortProtocols owner) := by
  obtain ⟨used, hused, hmem⟩ := PortAllocator.usedPortProtocols_eq_ok h.legible
  rw [hused]
  congr 1
  ext listener
  have hdisputed : ¬ ∃ o, st.reservedPortOwners.get listener = some o ∧ o ≠ owner := by
    simp [h.undisputed]
  rw [hmem, MuxState.mem_usedPortProtocols, h.reserved, or_iff_right hdisputed]
  refine or_congr_right (not_iff_not.mp ?_)
  push Not
  exact h.on_listener_iff (fun _ => False) listener

theorem reusablePort_eq (ref : PortAllocationRef) :
    a.reusablePort ref = .ok (st.reusablePort cfg ref) := by
  unfold PortAllocator.reusablePort MuxState.reusablePort
  have hrel := h.claims ref.key
  cases hallocation : a.allocations.get ref.key with
  | none =>
    rw [hallocation] at hrel
    cases hclaim : st.claims.get ref.key with
    | none => rfl
    | some claim => rw [hclaim] at hrel; cases hrel
  | some allocation =>
    obtain ⟨claim, hclaim, ⟨port, protocol⟩, hl, hlistener⟩ := h.claim_of_allocation hallocation
    obtain ⟨hport, -⟩ := PortAllocator.allocationListener_eq_ok_iff.mp hl
    have hmux := (MuxState.listener_eq_some_iff.mp hlistener).1
    simp only [hclaim, hport, hmux, h.isClaimed_eq port ref.protocol ref.key (refOwner cfg ref),
      h.ranges]
    cases containsPort a.ranges port <;>
      cases st.isClaimed port ref.protocol ref.key (refOwner cfg ref) <;> rfl

theorem nextAvailablePort_eq (cfg : Config) (protocol owner : String) :
    (a.nextAvailablePort cfg protocol).toOption =
      (st.nextAvailablePort protocol owner).toOption := by
  unfold PortAllocator.nextAvailablePort MuxState.nextAvailablePort
  simp only [h.usedPortProtocols_eq owner, h.ranges]
  cases (rangePorts a.ranges).find? fun port => (port, protocol) ∉ st.usedPortProtocols owner <;>
    rfl

theorem setClaim (ref : PortAllocationRef) (channelPort allocated : Int) (mode : String)
    (keys : Finset String) (changed : Bool) :
    Simulates (st.setClaim ref channelPort allocated mode)
      { a with
        activeKeys := keys
        allocations := a.allocations.set ref.key (PortAllocator.allocationOf ref allocated)
        changed := changed } := by
  have hfixed := MuxState.fixed_setClaim st ref channelPort allocated mode
  refine ⟨(MuxState.ranges_of_fixed hfixed).trans h.ranges,
    (MuxState.reservedPorts_of_fixed hfixed).trans h.reserved,
    (MuxState.reservedPortOwners_of_fixed hfixed).trans h.undisputed, fun key => ?_⟩
  have hsame : SameListener (PortAllocator.allocationOf ref allocated)
      (Claim.ofRef ref channelPort allocated mode) :=
    ⟨(allocated, ref.protocol),
      PortAllocator.allocationListener_eq_ok_iff.mpr
        ⟨allocationPort_eq_ok_iff.mpr (by simp [PortAllocator.allocationOf, FieldValue.toInt]), rfl⟩,
      listener_ofRef _ _ _ _⟩
  rw [MuxState.get_claims_setClaim, Dict.get_set]
  split_ifs
  · exact .some hsame
  · exact h.claims key

theorem allocate (c : Channel) (p : ServicePort) :
    SameOutcome (a.allocate cfg c p).1 (MuxState.allocate cfg c p st).1 ∧
      Simulates (MuxState.allocate cfg c p st).2 (a.allocate cfg c p).2 := by
  -- A refusal or a kept port changes the active keys only.
  have hkept : ∀ keys, Simulates st { a with activeKeys := keys } := fun _ =>
    ⟨h.ranges, h.reserved, h.undisputed, h.claims⟩
  unfold PortAllocator.allocate MuxState.allocate
  rw [h.ranges]
  split_ifs with hranges
  · exact ⟨rfl, h⟩
  dsimp only
  rw [h.reusablePort_eq]
  cases st.reusablePort cfg (.fromChannelPort c p) with
  | some existingPort => exact ⟨rfl, hkept _⟩
  | none =>
    dsimp only
    have hnext := h.nextAvailablePort_eq cfg (PortAllocationRef.fromChannelPort c p).protocol
      (refOwner cfg (.fromChannelPort c p))
    cases hlegacy : a.nextAvailablePort cfg (PortAllocationRef.fromChannelPort c p).protocol with
    | error e =>
      cases hmux : st.nextAvailablePort (PortAllocationRef.fromChannelPort c p).protocol
          (refOwner cfg (.fromChannelPort c p)) with
      | error e' => exact ⟨rfl, hkept _⟩
      | ok allocated => rw [hlegacy, hmux] at hnext; cases hnext
    | ok allocated =>
      cases hmux : st.nextAvailablePort (PortAllocationRef.fromChannelPort c p).protocol
          (refOwner cfg (.fromChannelPort c p)) with
      | error e' => rw [hlegacy, hmux] at hnext; cases hnext
      | ok allocated' =>
        rw [hlegacy, hmux] at hnext
        obtain rfl := Option.some.inj hnext
        exact ⟨rfl, h.setClaim _ _ _ _ _ _⟩

theorem portOf_eq (key : String) : a.portOf key = st.portOf key := by
  unfold PortAllocator.portOf MuxState.portOf
  have hrel := h.claims key
  cases hallocation : a.allocations.get key with
  | none =>
    rw [hallocation] at hrel
    cases hclaim : st.claims.get key with
    | none => rfl
    | some claim => rw [hclaim] at hrel; cases hrel
  | some allocation =>
    obtain ⟨claim, hclaim, listener, hl, hlistener⟩ := h.claim_of_allocation hallocation
    rw [hclaim, Option.map_some, Option.map_some,
      (PortAllocator.allocationListener_eq_ok_iff.mp hl).1,
      (MuxState.listener_eq_some_iff.mp hlistener).1]
    rfl

end Simulates

/-! ## Legacy states -/

/-- An allocation has a port that reads as an integer, a protocol, and no field of a claim for its
port. -/
def LegacyAllocation (allocation : Claim) : Prop :=
  allocation.muxPort = none ∧ (∃ port, allocationPort allocation = .ok port) ∧
    allocation.protocol.isSome

/-- A state as the legacy allocator writes it: allocations, and no claims. -/
def LegacyState (state : Option StateDoc) : Prop :=
  ∀ doc, state = some doc → doc.portClaims = none ∧
    ∀ allocation ∈ doc.allocations.getD [], LegacyAllocation allocation

namespace PortAllocator

def Stores (a : PortAllocator) : Prop :=
  ∀ key allocation, a.allocations.get key = some allocation → LegacyAllocation allocation

theorem legacyAllocation_allocationOf (ref : PortAllocationRef) (allocated : Int) :
    LegacyAllocation (allocationOf ref allocated) :=
  ⟨rfl, ⟨allocated, allocationPort_eq_ok_iff.mpr (by simp [allocationOf, FieldValue.toInt])⟩, rfl⟩

theorem stores_init {state : Option StateDoc} (hlegacy : LegacyState state)
    (muxKey : String × String) (ranges : List (Int × Int)) (reserved : Finset PortKey)
    (activeKeys : Option (Finset String)) :
    (init muxKey ranges state reserved activeKeys).Stores := by
  have hloaded : ∀ key allocation, (allocationsByKey state).get key = some allocation →
      LegacyAllocation allocation := by
    intro key allocation hget
    rcases Dict.mem_or_get_of_get_updateList _ _ _ _ hget with hmem | hempty
    · obtain ⟨listed, hl, heq⟩ := List.mem_map.mp hmem
      obtain ⟨-, rfl⟩ := Prod.mk.inj heq
      cases state with
      | none => simp at hl
      | some doc => exact (hlegacy doc rfl).2 _ hl
    · simp at hempty
  intro key allocation hget
  cases activeKeys with
  | none => exact hloaded key allocation hget
  | some active =>
    simp only [init, Dict.get_filterKeys] at hget
    split_ifs at hget
    exact hloaded key allocation hget

theorem stores_allocate {a : PortAllocator} (h : a.Stores) (cfg : Config) (c : Channel)
    (p : ServicePort) : (a.allocate cfg c p).2.Stores := by
  unfold allocate
  split_ifs
  · exact h
  dsimp only
  cases a.reusablePort (.fromChannelPort c p) with
  | error e => exact h
  | ok reusable =>
    cases reusable with
    | some existingPort => exact h
    | none =>
      dsimp only
      cases a.nextAvailablePort cfg (PortAllocationRef.fromChannelPort c p).protocol with
      | error e => exact h
      | ok allocated =>
        intro key allocation hget
        simp only [Dict.get_set] at hget
        split_ifs at hget
        · exact Option.some.inj hget ▸ legacyAllocation_allocationOf _ allocated
        · exact h key allocation hget

theorem legacyState_toState {a : PortAllocator} (h : a.Stores) :
    LegacyState (some a.toState) := by
  rintro doc ⟨⟩
  refine ⟨rfl, fun allocation hmem => ?_⟩
  obtain ⟨⟨key, allocation'⟩, hentry, rfl⟩ := List.mem_map.mp hmem
  have hget := (Dict.get_eq_some_iff _ _ _).mpr (List.mem_insertionSort _ |>.mp hentry)
  simp only [pruneInactive, Dict.get_filterKeys] at hget
  split_ifs at hget
  exact h key allocation' hget

/-- What the legacy allocator writes, after whatever calls, is a legacy state again. -/
theorem legacyState_of_trace (cfg : Config) (calls : List (Channel × ServicePort))
    {state : Option StateDoc} (hlegacy : LegacyState state) (muxKey : String × String)
    (ranges : List (Int × Int)) (reserved : Finset PortKey) (activeKeys : Option (Finset String)) :
    ∀ answer ∈ Simulation.trace (fun call (a : PortAllocator) => a.allocate cfg call.1 call.2)
      calls (init muxKey ranges state reserved activeKeys), LegacyState (some answer.2.toState) := by
  have hstores := stores_init hlegacy muxKey ranges reserved activeKeys
  generalize init muxKey ranges state reserved activeKeys = a at hstores
  induction calls generalizing a with
  | nil => simp [Simulation.trace]
  | cons call calls ih =>
    have hnext := stores_allocate hstores cfg call.1 call.2
    rw [Simulation.trace, List.forall_mem_cons]
    exact ⟨legacyState_toState hnext, ih _ hnext⟩

end PortAllocator

/-! ## Migration -/

theorem sameListener_normalizeClaim {allocation : Claim} (h : LegacyAllocation allocation) :
    SameListener allocation (normalizeClaim allocation) := by
  obtain ⟨hmux, ⟨port, hport⟩, hsome⟩ := h
  obtain ⟨protocol, hprotocol⟩ := Option.isSome_iff_exists.mp hsome
  refine ⟨(port, protocol), PortAllocator.allocationListener_eq_ok_iff.mpr ⟨hport, ?_⟩, ?_⟩
  · rw [allocationProtocol, hprotocol]
  · have hread := allocationPort_eq_ok_iff.mp hport
    rw [MuxState.listener_normalizeClaim, MuxState.listener_eq_some_iff]
    refine ⟨?_, by rw [Claim.protocolOrTcp, hprotocol]; rfl⟩
    rw [claimMuxPort, hmux, Option.none_or]
    obtain ⟨value, hvalue, htoInt⟩ := Option.bind_eq_some_iff.mp hread
    rw [hvalue]
    exact htoInt

theorem simulates_init {state : Option StateDoc} (hlegacy : LegacyState state)
    (muxKey : String × String) (ranges : List (Int × Int)) (reserved : Finset PortKey)
    {channels : List Channel} {activeKeys : Finset String}
    (hactive : ∀ key, key ∈ activeKeys ↔ key ∈ activeClaimKeys channels) :
    Simulates (MuxState.init muxKey ranges state channels reserved Dict.empty)
      (PortAllocator.init muxKey ranges state reserved (some activeKeys)) := by
  refine ⟨rfl, rfl, rfl, fun key => ?_⟩
  have hloaded : Option.Rel SameListener ((allocationsByKey state).get key)
      ((claimsByKey (stateClaims state)).get key) := by
    refine Dict.rel_get_updateList ?_ (fun _ => .none) key
    cases state with
    | none => exact .nil
    | some doc =>
      obtain ⟨hclaims, hall⟩ := hlegacy doc rfl
      have hlist : stateClaims (some doc) = doc.allocations.getD [] := by
        rw [stateClaims, hclaims]
      rw [hlist, List.forall₂_map_left_iff, List.forall₂_map_right_iff]
      refine List.forall₂_same.mpr fun allocation hmem => ?_
      exact ⟨rfl, sameListener_normalizeClaim (hall allocation hmem)⟩
  rw [MuxState.get_claims_init]
  simp only [PortAllocator.init, Dict.get_filterKeys, decide_eq_true_eq, hactive]
  split_ifs
  · exact hloaded
  · exact .none

/-- From a legacy state the legacy allocator and the claims of the mux start with the same ports,
answer any calls alike, and have the same ports after each of them. -/
theorem legacy_allocations_migrate (cfg : Config) (muxKey : String × String)
    (ranges : List (Int × Int)) (reserved : Finset PortKey) (state : Option StateDoc)
    (hlegacy : LegacyState state) (channels : List Channel) (activeKeys : Finset String)
    (hactive : ∀ key, key ∈ activeKeys ↔ key ∈ activeClaimKeys channels)
    (calls : List (Channel × ServicePort)) :
    (∀ key, (PortAllocator.init muxKey ranges state reserved (some activeKeys)).portOf key =
      (MuxState.init muxKey ranges state channels reserved Dict.empty).portOf key) ∧
    List.Forall₂
      (fun legacy current => SameOutcome legacy.1 current.1 ∧
        ∀ key, legacy.2.portOf key = current.2.portOf key)
      (Simulation.trace (fun call (a : PortAllocator) => a.allocate cfg call.1 call.2) calls
        (PortAllocator.init muxKey ranges state reserved (some activeKeys)))
      (Simulation.trace (fun call => MuxState.allocate cfg call.1 call.2) calls
        (MuxState.init muxKey ranges state channels reserved Dict.empty)) := by
  have hinit := simulates_init hlegacy muxKey ranges reserved hactive
  refine ⟨hinit.portOf_eq, ?_⟩
  refine (Simulation.traces_simulate (fun a st => Simulates st a) SameOutcome
    (fun call a st h => h.allocate call.1 call.2) calls hinit).imp fun legacy current h => ?_
  exact ⟨h.1, h.2.portOf_eq⟩

def migratedChannels : List Channel :=
  [sampleChannel "api" "http" 80 [("svc-mux.nowake.ai/external-ports", "http:auto")],
    sampleChannel "web" "http" 80 [("svc-mux.nowake.ai/external-ports", "http:auto")]]

def duplicatedState : StateDoc where
  mux := some (some "default", some "mux")
  portClaims := none
  allocations := some [PortAllocator.allocationOf ⟨"default", "api", "http", "TCP"⟩ 30000,
    PortAllocator.allocationOf ⟨"default", "web", "http", "TCP"⟩ 30000]

def migratedCalls : List (Channel × ServicePort) :=
  migratedChannels.flatMap fun c => c.ports.map fun p => (c, p)

/-- Whoever comes first is moved off the shared port, before the migration and after it. -/
theorem legacy_allocations_migrate_duplicated :
    List.Forall₂
      (fun legacy current => SameOutcome legacy.1 current.1 ∧
        ∀ key, legacy.2.portOf key = current.2.portOf key)
      (Simulation.trace (fun call (a : PortAllocator) => a.allocate sampleConfig call.1 call.2)
        migratedCalls (PortAllocator.init ("default", "mux") [(30000, 30001)]
          (some duplicatedState) ∅ (some (activeClaimKeys migratedChannels).toFinset)))
      (Simulation.trace (fun call => MuxState.allocate sampleConfig call.1 call.2) migratedCalls
        (MuxState.init ("default", "mux") [(30000, 30001)] (some duplicatedState)
          migratedChannels ∅ Dict.empty)) ∧
    (Simulation.trace (fun call => MuxState.allocate sampleConfig call.1 call.2) migratedCalls
      (MuxState.init ("default", "mux") [(30000, 30001)] (some duplicatedState)
        migratedChannels ∅ Dict.empty)).map (fun answer => answer.1.toOption) =
      [some 30001, some 30000] := by
  have hlegacy : LegacyState (some duplicatedState) := by
    rintro doc ⟨⟩
    refine ⟨rfl, fun allocation hmem => ?_⟩
    simp only [duplicatedState, Option.getD_some, List.mem_cons, List.not_mem_nil, or_false] at hmem
    rcases hmem with rfl | rfl <;> exact PortAllocator.legacyAllocation_allocationOf _ _
  exact ⟨(legacy_allocations_migrate sampleConfig ("default", "mux") [(30000, 30001)] ∅
    (some duplicatedState) hlegacy migratedChannels _ (fun _ => List.mem_toFinset)
    migratedCalls).2, by decide +kernel⟩

end SvcLbMux
