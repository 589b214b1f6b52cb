import Mathlib.Data.Prod.Lex
import SvcLbMux.ChannelPorts
import SvcLbMux.Library.Registry
import SvcLbMux.Library.Sorted

namespace SvcLbMux

open Py

variable (cfg : Config)

/-! ## Recovered owners -/

def channelOwnersByMuxName (channels : List Channel) : Dict String (List String) :=
  Dict.empty.addAll (channels.flatMap fun c =>
    (c.ports.filter fun p => !p.unnamed).map fun p => (c.muxName cfg p, c.owner cfg p))

/-- `existing` lists the set of existing mux ports in the order in which it is iterated. -/
def ownersFromExistingMuxPorts (ownersByMuxName : Dict String (List String))
    (existing : List MuxPort) : Dict PortKey String :=
  Dict.empty.setDefaults (existing.filterMap fun m =>
    (Dict.soleElement ((ownersByMuxName.get m.name).getD [])).map fun owner => (m.key, owner))

/-- The listeners that a channel's `ports` annotation gives to its declared ports. -/
def annotatedListeners (channel : Channel) (mappings : Dict String String) :
    List (PortKey × String) :=
  channel.ports.filterMap fun p =>
    if p.unnamed then none
    else match mappings.get p.portName with
      | none => none
      | some text =>
        match validatePortText text cfg.annotationPorts with
        | .error _ => none
        | .ok muxPort => some ((muxPort, p.protocolOrTcp), channel.owner cfg p)

def ownersFromChannelPortAnnotations (channels : List Channel) :
    Except ValueError (Dict PortKey (List String)) :=
  channels.foldlM (fun owners channel =>
    (parsePortMappings (channel.annotation cfg.annotationPorts)).map fun mappings =>
      owners.addAll (annotatedListeners cfg channel mappings)) Dict.empty

def collectExistingPortOwners (channels : List Channel) (existing : List MuxPort) :
    Except ValueError (Dict PortKey String) :=
  let portOwners := ownersFromExistingMuxPorts (channelOwnersByMuxName cfg channels) existing
  (ownersFromChannelPortAnnotations cfg channels).map fun annotationOwners =>
    portOwners.setDefaults (annotationOwners.entries.filterMap fun e =>
      (Dict.soleElement e.2).map fun owner => (e.1, owner))

/-- The `ports` annotation of a channel can be read. -/
def PortsAnnotationReadable (channel : Channel) : Prop :=
  ∃ mappings, parsePortMappings (channel.annotation cfg.annotationPorts) = .ok mappings

instance (channel : Channel) : Decidable (PortsAnnotationReadable cfg channel) :=
  match h : parsePortMappings (channel.annotation cfg.annotationPorts) with
  | .ok mappings => isTrue ⟨mappings, h⟩
  | .error _ => isFalse fun ⟨_, hmappings⟩ => by
    rw [h] at hmappings
    cases hmappings

/-! ## Conflicts -/

/-- The key by which `find_mux_port_conflicts` sorts. -/
def muxPortSortKey (m : MuxPort) : String ×ₗ Int ×ₗ String :=
  toLex (m.protocol, toLex (m.port, m.name))

theorem muxPortSortKey_injective : Function.Injective muxPortSortKey := by
  rintro ⟨n, p, q⟩ ⟨n', p', q'⟩ h
  simp only [muxPortSortKey, EmbeddingLike.apply_eq_iff_eq, Prod.mk.injEq] at h
  obtain ⟨rfl, rfl, rfl⟩ := h
  rfl

/-- The owner under which a channel asks for a mux port. -/
def claimant (channel : Channel) (m : MuxPort) : String :=
  ownerText channel.namespace_ channel.name m.name

/-- One mux port: a conflict with who has it already, or an assignment. -/
def checkMuxPort (portOwners : Dict PortKey String) (channel : Channel)
    (acc : List String × Dict PortKey String) (m : MuxPort) : List String × Dict PortKey String :=
  -- An owner is never the empty text, so that `or` passes on only where there is no owner.
  match (portOwners.get m.key).or (acc.2.get m.key) with
  | none => (acc.1, acc.2.set m.key (claimant channel m))
  | some previous =>
    if previous ≠ claimant channel m then
      (acc.1 ++ [str m.port ++ "/" ++ m.protocol ++ " is already claimed by " ++ previous], acc.2)
    else (acc.1, acc.2.set m.key (claimant channel m))

def findMuxPortConflicts (portOwners : Dict PortKey String) (channel : Channel)
    (muxPorts : Finset MuxPort) : List String × Dict PortKey String :=
  let r := (sortSet muxPortSortKey muxPortSortKey_injective muxPorts).foldl
    (checkMuxPort portOwners channel) ([], Dict.empty)
  (r.1, if r.1 = [] then portOwners.update r.2 else portOwners)

/-! ## What the recovered owners are -/

section Recovered

variable {cfg}

theorem collectExistingPortOwners_ok_iff (channels : List Channel) (existing : List MuxPort) :
    (∃ owners, collectExistingPortOwners cfg channels existing = .ok owners) ↔
      ∀ c ∈ channels, PortsAnnotationReadable cfg c := by
  have hmap : (∃ owners, collectExistingPortOwners cfg channels existing = .ok owners) ↔
      ∃ owners, ownersFromChannelPortAnnotations cfg channels = .ok owners := by
    unfold collectExistingPortOwners
    cases ownersFromChannelPortAnnotations cfg channels with
    | error e => simp [Except.map]
    | ok owners => simp [Except.map]
  rw [hmap, ownersFromChannelPortAnnotations]
  constructor
  · rintro ⟨owners, h⟩ c hc
    obtain ⟨s, s', hs⟩ := Loop.exists_ok_of_foldlM h hc
    unfold PortsAnnotationReadable
    cases hparse : parsePortMappings (c.annotation cfg.annotationPorts) with
    | error e => simp [hparse, Except.map] at hs
    | ok mappings => exact ⟨mappings, rfl⟩
  · intro h
    refine Loop.foldlM_ok (fun s c hc => ?_) Dict.empty
    obtain ⟨mappings, hparse⟩ := h c hc
    exact ⟨_, by rw [hparse]; rfl⟩

theorem mem_get_channelOwnersByMuxName {channels : List Channel} {name owner : String} :
    owner ∈ ((channelOwnersByMuxName cfg channels).get name).getD [] ↔
      ∃ c ∈ channels, ∃ p ∈ c.ports, p.unnamed = false ∧ c.muxName cfg p = name ∧
        c.owner cfg p = owner := by
  rw [channelOwnersByMuxName, Dict.mem_get_addAll]
  simp only [Dict.get_empty, Option.getD_none, List.not_mem_nil, or_false, List.mem_flatMap,
    List.mem_map, List.mem_filter, Bool.not_eq_true', Prod.mk.injEq, and_assoc]

theorem mem_get_ownersFromChannelPortAnnotations {channels : List Channel}
    {owners : Dict PortKey (List String)}
    (hok : ownersFromChannelPortAnnotations cfg channels = .ok owners) {key : PortKey}
    {owner : String} :
    owner ∈ (owners.get key).getD [] ↔
      ∃ c ∈ channels, ∃ mappings, parsePortMappings (c.annotation cfg.annotationPorts) =
        .ok mappings ∧ (key, owner) ∈ annotatedListeners cfg c mappings := by
  have h := Loop.foldlM_adds
    (fun (owners : Dict PortKey (List String)) (e : PortKey × String) =>
      e.2 ∈ (owners.get e.1).getD [])
    (fun c e => ∃ mappings, parsePortMappings (c.annotation cfg.annotationPorts) = .ok mappings ∧
      e ∈ annotatedListeners cfg c mappings) ?_ hok (key, owner)
  · simpa using h
  rintro owners c owners' hstep ⟨key, owner⟩
  cases hparse : parsePortMappings (c.annotation cfg.annotationPorts) with
  | error e => simp [hparse, Except.map] at hstep
  | ok mappings =>
    simp only [hparse, Except.map, Except.ok.injEq] at hstep
    subst hstep
    rw [Dict.mem_get_addAll]
    simp [or_comm]

theorem nodup_get_ownersFromChannelPortAnnotations {channels : List Channel}
    {owners : Dict PortKey (List String)}
    (hok : ownersFromChannelPortAnnotations cfg channels = .ok owners) (key : PortKey) :
    ((owners.get key).getD []).Nodup := by
  refine Loop.foldlM_invariant
    (fun owners : Dict PortKey (List String) => ∀ key, ((owners.get key).getD []).Nodup) ?_ ?_ hok key
  · simp
  · intro owners c owners' hnodup hstep
    cases hparse : parsePortMappings (c.annotation cfg.annotationPorts) with
    | error e => simp [hparse, Except.map] at hstep
    | ok mappings =>
      simp only [hparse, Except.map, Except.ok.injEq] at hstep
      subst hstep
      exact Dict.nodup_get_addAll hnodup _

section ExistingMuxPorts

variable {ownersByMuxName : Dict String (List String)} {existing : List MuxPort} {key : PortKey}
  {owner : String}

theorem mem_muxPortOwners_iff :
    (key, owner) ∈ (existing.filterMap fun m =>
      (Dict.soleElement ((ownersByMuxName.get m.name).getD [])).map fun owner => (m.key, owner)) ↔
    ∃ m ∈ existing, m.key = key ∧
      Dict.soleElement ((ownersByMuxName.get m.name).getD []) = some owner := by
  simp only [List.mem_filterMap, Option.map_eq_some_iff, Prod.mk.injEq]
  refine exists_congr fun m => and_congr_right fun _ => ⟨?_, ?_⟩
  · rintro ⟨o, hsole, hkey, rfl⟩
    exact ⟨hkey, hsole⟩
  · rintro ⟨hkey, hsole⟩
    exact ⟨owner, hsole, hkey, rfl⟩

theorem mem_of_get_ownersFromExistingMuxPorts
    (h : (ownersFromExistingMuxPorts ownersByMuxName existing).get key = some owner) :
    ∃ m ∈ existing, m.key = key ∧
      Dict.soleElement ((ownersByMuxName.get m.name).getD []) = some owner :=
  mem_muxPortOwners_iff.mp (Dict.mem_of_get_setDefaults_empty h)

theorem exists_get_ownersFromExistingMuxPorts {m : MuxPort} (hm : m ∈ existing) (hkey : m.key = key)
    (hsole : Dict.soleElement ((ownersByMuxName.get m.name).getD []) = some owner) :
    ∃ o, (ownersFromExistingMuxPorts ownersByMuxName existing).get key = some o :=
  Dict.exists_get_setDefaults_empty (mem_muxPortOwners_iff.mpr ⟨m, hm, hkey, hsole⟩)

theorem get_ownersFromExistingMuxPorts_iff
    (hunique : ∀ m ∈ existing, ∀ m' ∈ existing, m.key = m'.key → m = m') :
    (ownersFromExistingMuxPorts ownersByMuxName existing).get key = some owner ↔
      ∃ m ∈ existing, m.key = key ∧
        Dict.soleElement ((ownersByMuxName.get m.name).getD []) = some owner := by
  refine ⟨mem_of_get_ownersFromExistingMuxPorts, fun ⟨m, hm, hkey, hsole⟩ => ?_⟩
  obtain ⟨o, ho⟩ := exists_get_ownersFromExistingMuxPorts hm hkey hsole
  obtain ⟨m', hm', hkey', hsole'⟩ := mem_of_get_ownersFromExistingMuxPorts ho
  obtain rfl := hunique m hm m' hm' (hkey.trans hkey'.symm)
  exact ho.trans (hsole'.symm.trans hsole)

end ExistingMuxPorts

theorem get_collectExistingPortOwners {channels : List Channel} {existing : List MuxPort}
    {owners : Dict PortKey String}
    (hok : collectExistingPortOwners cfg channels existing = .ok owners) :
    ∃ annotationOwners, ownersFromChannelPortAnnotations cfg channels = .ok annotationOwners ∧
      ∀ key, owners.get key =
        ((ownersFromExistingMuxPorts (channelOwnersByMuxName cfg channels) existing).get key).or
          (Dict.soleElement ((annotationOwners.get key).getD [])) := by
  unfold collectExistingPortOwners at hok
  cases hann : ownersFromChannelPortAnnotations cfg channels with
  | error e => simp [hann, Except.map] at hok
  | ok annotationOwners =>
    simp only [hann, Except.map, Except.ok.injEq] at hok
    refine ⟨annotationOwners, rfl, fun key => ?_⟩
    rw [← hok, Dict.get_setDefaults_filterMap]
    cases annotationOwners.get key <;> rfl

/-- Where the mux and the annotations have a channel on a listener, nobody else is recovered. -/
theorem eq_owner_of_get_collectExistingPortOwners {channels : List Channel}
    {existing : List MuxPort} {owners : Dict PortKey String}
    (hok : collectExistingPortOwners cfg channels existing = .ok owners) {c : Channel}
    (hc : c ∈ channels) {p : ServicePort} (hp : p ∈ c.ports) (hnamed : p.unnamed = false)
    {key : PortKey} (hexisting : ∀ m ∈ existing, m.key = key → m.name = c.muxName cfg p)
    {mappings : Dict String String}
    (hparse : parsePortMappings (c.annotation cfg.annotationPorts) = .ok mappings)
    (hannotated : (key, c.owner cfg p) ∈ annotatedListeners cfg c mappings) {owner : String}
    (h : owners.get key = some owner) : owner = c.owner cfg p := by
  obtain ⟨annotationOwners, hann, hget⟩ := get_collectExistingPortOwners hok
  rw [hget] at h
  rcases Option.or_eq_some_iff.mp h with h | ⟨-, hsole⟩
  · -- From a mux port: the channel is a candidate for its name.
    obtain ⟨m, hm, hkey, hsole⟩ := mem_of_get_ownersFromExistingMuxPorts h
    rw [hexisting m hm hkey] at hsole
    exact (Dict.eq_of_mem_of_soleElement
      (mem_get_channelOwnersByMuxName.mpr ⟨c, hc, p, hp, hnamed, rfl, rfl⟩) hsole).symm
  · -- From the annotations: the channel is a candidate for the listener.
    exact (Dict.eq_of_mem_of_soleElement ((mem_get_ownersFromChannelPortAnnotations hann).mpr
      ⟨c, hc, mappings, hparse, hannotated⟩) hsole).symm

/-- The owner of a live mux port is recovered, if no other declared port has its name. -/
theorem get_collectExistingPortOwners_of_existing {channels : List Channel}
    {existing : List MuxPort} {owners : Dict PortKey String}
    (hok : collectExistingPortOwners cfg channels existing = .ok owners) {c : Channel}
    (hc : c ∈ channels) {p : ServicePort} (hp : p ∈ c.ports) (hnamed : p.unnamed = false)
    (hsole : ∀ d ∈ channels, ∀ q ∈ d.ports, d.muxName cfg q = c.muxName cfg p →
      d.owner cfg q = c.owner cfg p)
    {m : MuxPort} (hm : m ∈ existing) (hname : m.name = c.muxName cfg p)
    (hkeys : ∀ m' ∈ existing, m'.key = m.key → m'.name = m.name) :
    owners.get m.key = some (c.owner cfg p) := by
  have hcandidate : Dict.soleElement
      (((channelOwnersByMuxName cfg channels).get (c.muxName cfg p)).getD []) =
        some (c.owner cfg p) := by
    refine Dict.soleElement_of_forall_eq ?_ ?_ fun owner howner => ?_
    · exact Dict.nodup_get_addAll (by simp) _ _
    · exact mem_get_channelOwnersByMuxName.mpr ⟨c, hc, p, hp, hnamed, rfl, rfl⟩
    · obtain ⟨d, hd, q, hq, -, hsame, rfl⟩ := mem_get_channelOwnersByMuxName.mp howner
      exact hsole d hd q hq hsame
  obtain ⟨annotationOwners, -, hget⟩ := get_collectExistingPortOwners hok
  -- The first mux port on the listener decides, and all of them have the same name.
  obtain ⟨o, ho⟩ := exists_get_ownersFromExistingMuxPorts hm rfl (hname ▸ hcandidate)
  obtain ⟨m', hm', hkey, hsole'⟩ := mem_of_get_ownersFromExistingMuxPorts ho
  rw [hkeys m' hm' hkey, hname, hcandidate] at hsole'
  rw [hget, ho, hsole', Option.some_or]

/-- The evidence names an owner of a listener: there is a mux port on it whose name belongs to this
owner alone, or the `ports` annotation of a channel lists it. -/
def NamesOwner (cfg : Config) (channels : List Channel) (existing : List MuxPort) (key : PortKey)
    (owner : String) : Prop :=
  (∃ m ∈ existing, m.key = key ∧
    Dict.soleElement (((channelOwnersByMuxName cfg channels).get m.name).getD []) = some owner) ∨
  ∃ c ∈ channels, ∃ mappings, parsePortMappings (c.annotation cfg.annotationPorts) = .ok mappings ∧
    (key, owner) ∈ annotatedListeners cfg c mappings

theorem namesOwner_of_get {channels : List Channel} {existing : List MuxPort}
    {owners : Dict PortKey String}
    (hok : collectExistingPortOwners cfg channels existing = .ok owners) {key : PortKey}
    {owner : String} (h : owners.get key = some owner) :
    NamesOwner cfg channels existing key owner := by
  obtain ⟨annotationOwners, hann, hget⟩ := get_collectExistingPortOwners hok
  rw [hget] at h
  rcases Option.or_eq_some_iff.mp h with h | ⟨-, hsole⟩
  · exact Or.inl (mem_of_get_ownersFromExistingMuxPorts h)
  · exact Or.inr ((mem_get_ownersFromChannelPortAnnotations hann).mp (Dict.mem_of_soleElement hsole))

theorem get_collectExistingPortOwners_iff {channels : List Channel} {existing : List MuxPort}
    {owners : Dict PortKey String}
    (hok : collectExistingPortOwners cfg channels existing = .ok owners) {key : PortKey}
    (hagree : ∀ o o', NamesOwner cfg channels existing key o →
      NamesOwner cfg channels existing key o' → o = o') {owner : String} :
    owners.get key = some owner ↔ NamesOwner cfg channels existing key owner := by
  refine ⟨namesOwner_of_get hok, fun hnames => ?_⟩
  -- Some owner is recovered, and it is named as well.
  suffices hsome : owners.get key ≠ none by
    obtain ⟨o, ho⟩ := Option.ne_none_iff_exists'.mp hsome
    rw [ho, hagree o owner (namesOwner_of_get hok ho) hnames]
  obtain ⟨annotationOwners, hann, hget⟩ := get_collectExistingPortOwners hok
  rw [hget, ne_eq, Option.or_eq_none_iff, not_and_or]
  rcases hnames with ⟨m, hm, hkey, hsole⟩ | hannotated
  · exact Or.inl (Option.ne_none_iff_exists'.mpr
      (exists_get_ownersFromExistingMuxPorts hm hkey hsole))
  · have hsole : Dict.soleElement ((annotationOwners.get key).getD []) = some owner := by
      refine Dict.soleElement_of_forall_eq (nodup_get_ownersFromChannelPortAnnotations hann key)
        ((mem_get_ownersFromChannelPortAnnotations hann).mpr hannotated) fun o ho => ?_
      exact hagree o owner
        (Or.inr ((mem_get_ownersFromChannelPortAnnotations hann).mp ho)) (Or.inr hannotated)
    exact Or.inr (by simp [hsole])

/-- Where no two mux ports are on one listener, the order in which they come does not matter. -/
theorem get_collectExistingPortOwners_congr {channels : List Channel}
    {existing existing' : List MuxPort} {owners owners' : Dict PortKey String}
    (hok : collectExistingPortOwners cfg channels existing = .ok owners)
    (hok' : collectExistingPortOwners cfg channels existing' = .ok owners')
    (hmem : ∀ m, m ∈ existing ↔ m ∈ existing')
    (hunique : ∀ m ∈ existing, ∀ m' ∈ existing, m.key = m'.key → m = m') (key : PortKey) :
    owners.get key = owners'.get key := by
  have hunique' : ∀ m ∈ existing', ∀ m' ∈ existing', m.key = m'.key → m = m' :=
    fun m hm m' hm' => hunique m ((hmem m).mpr hm) m' ((hmem m').mpr hm')
  have hsame : (ownersFromExistingMuxPorts (channelOwnersByMuxName cfg channels) existing).get key =
      (ownersFromExistingMuxPorts (channelOwnersByMuxName cfg channels) existing').get key := by
    ext owner
    rw [get_ownersFromExistingMuxPorts_iff hunique, get_ownersFromExistingMuxPorts_iff hunique']
    simp only [hmem]
  obtain ⟨annotationOwners, hann, hget⟩ := get_collectExistingPortOwners hok
  obtain ⟨annotationOwners', hann', hget'⟩ := get_collectExistingPortOwners hok'
  obtain rfl := Except.ok.inj (hann.symm.trans hann')
  rw [hget, hget', hsame]

end Recovered

/-! ## What the check decides -/

section Conflicts

variable {portOwners : Dict PortKey String} {channel : Channel} {muxPorts : Finset MuxPort}

/-- What a channel asks for, as a batch of requests. -/
def requests (channel : Channel) (muxPorts : Set MuxPort) : Set (PortKey × String) :=
  {e | ∃ m ∈ muxPorts, e = (m.key, claimant channel m)}

/-- The state of the check after the mux ports of `done`. -/
structure Checked (portOwners : Dict PortKey String) (channel : Channel) (done : List MuxPort)
    (acc : List String × Dict PortKey String) : Prop where
  assigned : ∀ key owner, acc.2.get key = some owner →
    ∃ m ∈ done, m.key = key ∧ owner = claimant channel m
  free : acc.1 = [] → ∀ m ∈ done, acc.2.get m.key = some (claimant channel m) ∧
    ∀ owner, portOwners.get m.key = some owner → owner = claimant channel m
  conflict : acc.1 ≠ [] →
    ¬ (Registry.ofDict portOwners).Compatible (requests channel {m | m ∈ done})

theorem not_compatible_of_subset {r : Registry PortKey String} {batch batch' : Set (PortKey × String)}
    (hsub : batch ⊆ batch') (h : ¬ r.Compatible batch) : ¬ r.Compatible batch' := fun h' =>
  h fun _ _ _ ho ho' =>
    h' (Set.union_subset_union_right _ hsub ho) (Set.union_subset_union_right _ hsub ho')

theorem requests_subset_append (done : List MuxPort) (m : MuxPort) :
    requests channel {k | k ∈ done} ⊆ requests channel {k | k ∈ done ++ [m]} := by
  rintro e ⟨k, hk, rfl⟩
  exact ⟨k, List.mem_append_left _ hk, rfl⟩

/-- A mux port whose listener is free, or the claimant's own already, is assigned to the claimant. -/
theorem checked_of_granted {done : List MuxPort} {acc : List String × Dict PortKey String}
    (h : Checked portOwners channel done acc) {m : MuxPort}
    (hprev : ∀ previous, (portOwners.get m.key).or (acc.2.get m.key) = some previous →
      previous = claimant channel m) :
    Checked portOwners channel (done ++ [m]) (checkMuxPort portOwners channel acc m) := by
  have hcheck : checkMuxPort portOwners channel acc m =
      (acc.1, acc.2.set m.key (claimant channel m)) := by
    unfold checkMuxPort
    cases hget : (portOwners.get m.key).or (acc.2.get m.key) with
    | none => rfl
    | some previous => simp [hprev previous hget]
  rw [hcheck]
  refine ⟨fun key owner hget => ?_, fun hnil k hk => ?_, fun hne => ?_⟩
  · rw [Dict.get_set] at hget
    split_ifs at hget with hkey
    · exact ⟨m, by simp, hkey, (Option.some.inj hget).symm⟩
    · obtain ⟨k, hk, hkk, hko⟩ := h.assigned key owner hget
      exact ⟨k, List.mem_append_left _ hk, hkk, hko⟩
  · rcases List.mem_append.mp hk with hk | hk
    · obtain ⟨hassigned, hfree⟩ := h.free hnil k hk
      refine ⟨?_, hfree⟩
      rw [Dict.get_set]
      split_ifs with hkey
      · -- Two mux ports on one listener: both passed, under one owner.
        cases howner : portOwners.get m.key with
        | some o =>
          have hm := hprev o (by rw [howner]; rfl)
          have hk' := hfree o (hkey ▸ howner)
          rw [← hm, hk']
        | none =>
          have hm := hprev (claimant channel k) (by rw [howner, Option.none_or, hkey, hassigned])
          rw [hm]
      · exact hassigned
    · obtain rfl := List.mem_singleton.mp hk
      exact ⟨Dict.get_set_self _ _ _, fun o ho => hprev o (by rw [ho]; rfl)⟩
  · exact not_compatible_of_subset (requests_subset_append done m) (h.conflict hne)

theorem checked_of_refused {done : List MuxPort} {acc : List String × Dict PortKey String}
    (h : Checked portOwners channel done acc) {m : MuxPort} {previous : String}
    (hget : (portOwners.get m.key).or (acc.2.get m.key) = some previous)
    (hne : previous ≠ claimant channel m) :
    Checked portOwners channel (done ++ [m]) (checkMuxPort portOwners channel acc m) := by
  have hcheck : checkMuxPort portOwners channel acc m =
      (acc.1 ++ [str m.port ++ "/" ++ m.protocol ++ " is already claimed by " ++ previous],
        acc.2) := by
    unfold checkMuxPort
    rw [hget]
    simp [hne]
  rw [hcheck]
  have hm : (m.key, claimant channel m) ∈ requests channel {k | k ∈ done ++ [m]} :=
    ⟨m, by simp, rfl⟩
  refine ⟨fun key owner hkey => ?_, fun hnil => absurd hnil (by simp), fun _ => ?_⟩
  · obtain ⟨k, hk, hkk, hko⟩ := h.assigned key owner hkey
    exact ⟨k, List.mem_append_left _ hk, hkk, hko⟩
  · cases howner : portOwners.get m.key with
    | some o =>
      -- It had an owner before the check.
      rw [howner, Option.some_or] at hget
      obtain rfl := Option.some.inj hget
      exact Registry.not_compatible_of_foreign ((Registry.mem_ofDict _ _ _).mpr howner) hm hne
    | none =>
      -- Another port of the same channel was given it during the check.
      rw [howner, Option.none_or] at hget
      obtain ⟨k, hk, hkey, rfl⟩ := h.assigned m.key previous hget
      intro hcompat
      refine hne (((Registry.compatible_iff _ _).mp hcompat).2 ?_ hm)
      exact ⟨k, List.mem_append_left _ hk, by rw [hkey]⟩

/-- The check of one mux port: either it goes through, or the requests so far are incompatible. -/
theorem checked_step {done : List MuxPort} {acc : List String × Dict PortKey String}
    (h : Checked portOwners channel done acc) (m : MuxPort) :
    Checked portOwners channel (done ++ [m]) (checkMuxPort portOwners channel acc m) := by
  by_cases hprev : ∀ previous, (portOwners.get m.key).or (acc.2.get m.key) = some previous →
      previous = claimant channel m
  · exact checked_of_granted h hprev
  · push Not at hprev
    obtain ⟨previous, hget, hne⟩ := hprev
    exact checked_of_refused h hget hne

theorem checked_foldl {done rest : List MuxPort} {acc : List String × Dict PortKey String}
    (h : Checked portOwners channel done acc) :
    Checked portOwners channel (done ++ rest)
      (rest.foldl (checkMuxPort portOwners channel) acc) := by
  induction rest generalizing done acc with
  | nil => simpa using h
  | cons m rest ih => simpa using ih (checked_step h m)

theorem checked_findMuxPortConflicts (portOwners : Dict PortKey String) (channel : Channel)
    (muxPorts : Finset MuxPort) :
    Checked portOwners channel (sortSet muxPortSortKey muxPortSortKey_injective muxPorts)
      ((sortSet muxPortSortKey muxPortSortKey_injective muxPorts).foldl
        (checkMuxPort portOwners channel) ([], Dict.empty)) := by
  have hstart : Checked portOwners channel [] ([], Dict.empty) :=
    ⟨fun _ _ h => by simp at h, fun _ _ h => by simp at h, fun h => absurd rfl h⟩
  exact checked_foldl hstart

/-- There are no conflicts exactly when the registry of owners can grant the whole request. -/
theorem findMuxPortConflicts_eq_nil_iff :
    (findMuxPortConflicts portOwners channel muxPorts).1 = [] ↔
      (Registry.ofDict portOwners).Compatible (requests channel {m | m ∈ muxPorts}) := by
  have h := checked_findMuxPortConflicts portOwners channel muxPorts
  have hset : {m | m ∈ sortSet muxPortSortKey muxPortSortKey_injective muxPorts} =
      {m | m ∈ muxPorts} := Set.ext fun m => mem_sortSet _ _ _ m
  constructor
  · intro hnil
    rw [Registry.compatible_iff]
    constructor
    · rintro k o o' hk ⟨m, hm, heq⟩
      obtain ⟨rfl, rfl⟩ := Prod.mk.inj heq
      exact (h.free hnil m ((mem_sortSet _ _ _ m).mpr hm)).2 o hk
    · rintro k o o' ⟨m, hm, heq⟩ ⟨m', hm', heq'⟩
      obtain ⟨rfl, rfl⟩ := Prod.mk.inj heq
      obtain ⟨hkey, rfl⟩ := Prod.mk.inj heq'
      have hassigned := (h.free hnil m ((mem_sortSet _ _ _ m).mpr hm)).1
      have hassigned' := (h.free hnil m' ((mem_sortSet _ _ _ m').mpr hm')).1
      rw [hkey, hassigned'] at hassigned
      exact (Option.some.inj hassigned).symm
  · intro hcompat
    by_contra hne
    have := h.conflict hne
    rw [hset] at this
    exact this hcompat

/-- Without conflicts the channel owns what it asked for, and nothing else changes. -/
theorem get_findMuxPortConflicts (hnil : (findMuxPortConflicts portOwners channel muxPorts).1 = [])
    (key : PortKey) (owner : String) :
    (findMuxPortConflicts portOwners channel muxPorts).2.get key = some owner ↔
      portOwners.get key = some owner ∨ (key, owner) ∈ requests channel {m | m ∈ muxPorts} := by
  have h := checked_findMuxPortConflicts portOwners channel muxPorts
  have hupdate : (findMuxPortConflicts portOwners channel muxPorts).2 = portOwners.update
      ((sortSet muxPortSortKey muxPortSortKey_injective muxPorts).foldl
        (checkMuxPort portOwners channel) ([], Dict.empty)).2 := if_pos hnil
  rw [hupdate, Dict.get_update]
  constructor
  · intro hget
    rcases Option.or_eq_some_iff.mp hget with hassigned | ⟨-, hold⟩
    · obtain ⟨m, hm, rfl, rfl⟩ := h.assigned _ _ hassigned
      exact Or.inr ⟨m, (mem_sortSet _ _ _ m).mp hm, rfl⟩
    · exact Or.inl hold
  · rintro (hold | ⟨m, hm, heq⟩)
    · cases hassigned : ((sortSet muxPortSortKey muxPortSortKey_injective muxPorts).foldl
          (checkMuxPort portOwners channel) ([], Dict.empty)).2.get key with
      | none => exact hold
      | some o =>
        obtain ⟨m, hm, rfl, rfl⟩ := h.assigned _ _ hassigned
        rw [(h.free hnil m hm).2 owner hold]
        rfl
    · obtain ⟨rfl, rfl⟩ := Prod.mk.inj heq
      rw [(h.free hnil m ((mem_sortSet _ _ _ m).mpr hm)).1]
      rfl

theorem ofDict_findMuxPortConflicts (portOwners : Dict PortKey String) (channel : Channel)
    (muxPorts : Finset MuxPort) :
    Registry.ofDict (findMuxPortConflicts portOwners channel muxPorts).2 =
      (Registry.ofDict portOwners).offer (requests channel {m | m ∈ muxPorts}) := by
  by_cases hnil : (findMuxPortConflicts portOwners channel muxPorts).1 = []
  · apply Registry.ext
    rw [Registry.offer_of_compatible (findMuxPortConflicts_eq_nil_iff.mp hnil)]
    ext ⟨key, owner⟩
    exact get_findMuxPortConflicts hnil key owner
  · rw [Registry.offer_of_not_compatible fun h => hnil (findMuxPortConflicts_eq_nil_iff.mpr h)]
    exact congrArg Registry.ofDict (if_neg hnil)

end Conflicts

end SvcLbMux
