import SvcLbMux.StaticClaims

namespace SvcLbMux

open Py

variable {cfg : Config}

/-! ## The name of the state ConfigMap -/

theorem mem_hexDigits_of_mem_hexdigest {text : String} {c : Char}
    (hc : c ∈ cfg.hexdigest text) : c ∈ "0123456789abcdef".toList := by
  obtain ⟨i, -, rfl⟩ := List.mem_map.mp hc
  have hdigit : ∀ d < 16, Nat.digitChar d ∈ "0123456789abcdef".toList := by decide
  exact hdigit _ (Nat.mod_lt _ (by omega))

theorem length_hexdigest_take (text : String) : ((cfg.hexdigest text).take 8).length = 8 := by
  simp [Config.hexdigest]

theorem toList_defaultAllocationConfigmapName_long {muxName : String}
    (h : 63 < (muxName ++ "-port-allocations").toList.length) :
    (defaultAllocationConfigmapName cfg muxName).toList =
      (muxName.toList.take 54 ++ ['-']) ++ (cfg.hexdigest muxName).take 8 := by
  rw [defaultAllocationConfigmapName, if_neg (Nat.not_le.mpr h)]
  simp [String.toList_append]

/-- The name of a short mux name ends in a text that is not a digest. -/
theorem toList_defaultAllocationConfigmapName_short {muxName : String}
    (h : (muxName ++ "-port-allocations").toList.length ≤ 63) :
    (defaultAllocationConfigmapName cfg muxName).toList =
      (muxName.toList ++ "-port-all".toList) ++ "ocations".toList := by
  rw [defaultAllocationConfigmapName, if_pos h, String.toList_append, List.append_assoc]
  rfl

theorem length_defaultAllocationConfigmapName_le (muxName : String) :
    (defaultAllocationConfigmapName cfg muxName).toList.length ≤ 63 := by
  rcases Nat.lt_or_ge 63 (muxName ++ "-port-allocations").toList.length with hlong | hshort
  · rw [toList_defaultAllocationConfigmapName_long hlong]
    simp only [List.length_append, List.length_take, List.length_cons, List.length_nil]
    omega
  · rw [defaultAllocationConfigmapName, if_pos hshort]
    exact hshort

/-- A name that was kept is not one that was cut: no digest ends in `ocations`. -/
theorem short_ne_long_configmapName {muxName muxName' : String}
    (hshort : (muxName ++ "-port-allocations").toList.length ≤ 63)
    (hlong : 63 < (muxName' ++ "-port-allocations").toList.length) :
    defaultAllocationConfigmapName cfg muxName ≠ defaultAllocationConfigmapName cfg muxName' := by
  intro h
  have hl := congrArg String.toList h
  rw [toList_defaultAllocationConfigmapName_short hshort,
    toList_defaultAllocationConfigmapName_long hlong] at hl
  have hend : "ocations".toList = (cfg.hexdigest muxName').take 8 :=
    (List.append_inj' hl (length_hexdigest_take muxName').symm).2
  have hmem : 'o' ∈ (cfg.hexdigest muxName').take 8 := hend ▸ by decide
  exact absurd (mem_hexDigits_of_mem_hexdigest (List.mem_of_mem_take hmem)) (by decide)

/-- Different mux names have different state ConfigMaps, as far as the digests tell the two names
apart, and the name of a ConfigMap is never too long. -/
theorem defaultAllocationConfigmapName_injective (cfg : Config) (muxName muxName' : String)
    (hdigest : (cfg.hexdigest muxName).take 8 = (cfg.hexdigest muxName').take 8 →
      muxName = muxName') :
    (defaultAllocationConfigmapName cfg muxName = defaultAllocationConfigmapName cfg muxName' →
        muxName = muxName') ∧
      ∀ name, (defaultAllocationConfigmapName cfg name).toList.length ≤ 63 := by
  refine ⟨fun h => ?_, length_defaultAllocationConfigmapName_le⟩
  have hl := congrArg String.toList h
  rcases Nat.lt_or_ge 63 (muxName ++ "-port-allocations").toList.length with hlong | hshort <;>
    rcases Nat.lt_or_ge 63 (muxName' ++ "-port-allocations").toList.length with hlong' | hshort'
  · apply hdigest
    rw [toList_defaultAllocationConfigmapName_long hlong,
      toList_defaultAllocationConfigmapName_long hlong'] at hl
    exact (List.append_inj' hl
      ((length_hexdigest_take muxName).trans (length_hexdigest_take muxName').symm)).2
  · exact absurd h.symm (short_ne_long_configmapName hshort' hlong)
  · exact absurd h (short_ne_long_configmapName hshort hlong')
  · rw [toList_defaultAllocationConfigmapName_short hshort,
      toList_defaultAllocationConfigmapName_short hshort', List.append_assoc,
      List.append_assoc] at hl
    exact String.toList_inj.mp (List.append_cancel_right hl)

def longMuxName (last : Char) : String := String.ofList (List.replicate 79 'm' ++ [last])

/-- The sample configuration with the digests of two mux names of which the same part is kept. -/
def longNamesConfig : Config :=
  { sampleConfig with
    sha256 := fun text =>
      if text = longMuxName 'm' then
        ⟨0x76bf4d2072b033748a5e0113bc738378ba9a3a80976bf69f1ab9ca40b19e1f9c, by decide⟩
      else if text = longMuxName 'n' then
        ⟨0x608e23d18e2dac69d0f90b509c681e370a7287edc6c3ccf19ffb5ef05798a47b, by decide⟩
      else sampleConfig.sha256 text }

theorem defaultAllocationConfigmapName_injective_long :
    (defaultAllocationConfigmapName longNamesConfig (longMuxName 'm') =
        defaultAllocationConfigmapName longNamesConfig (longMuxName 'n') →
        longMuxName 'm' = longMuxName 'n') ∧
      ∀ name, (defaultAllocationConfigmapName longNamesConfig name).toList.length ≤ 63 :=
  defaultAllocationConfigmapName_injective longNamesConfig _ _ (by decide +kernel)

/-! ## The owner of a port -/

/-- The text that is hashed for the mux name of a port. -/
def PortAllocationRef.hashedText (ref : PortAllocationRef) : String :=
  ref.namespace_ ++ "/" ++ ref.service ++ "/" ++ ref.portName

/-- The references are to ports of one name in one Service. -/
def PortAllocationRef.SamePort (ref ref' : PortAllocationRef) : Prop :=
  ref.namespace_ = ref'.namespace_ ∧ ref.service = ref'.service ∧ ref.portName = ref'.portName

def PortAllocationRef.Separated (ref : PortAllocationRef) : Prop :=
  ∀ field ∈ [ref.namespace_, ref.service, ref.portName, ref.protocol],
    '/' ∉ field.toList ∧ ':' ∉ field.toList

theorem PortAllocationRef.Separated.plain {ref : PortAllocationRef} (h : ref.Separated) :
    ref.Plain :=
  ⟨(h _ (by simp)).2, (h _ (by simp)).2, (h _ (by simp)).2, (h _ (by simp)).2⟩

theorem refOwner_eq (ref : PortAllocationRef) :
    refOwner cfg ref =
      ownerText ref.namespace_ ref.service (cfg.shortDigest ref.hashedText) := rfl

/-- The five places that spell out the owner of a port spell the same text: the owner of the
reference to the port. -/
structure OwnerTextsAgree (cfg : Config) : Prop where
  claim : ∀ claim : Claim, claimOwner cfg claim = refOwner cfg claim.ref
  byMuxName : ∀ channels name owner,
    owner ∈ ((channelOwnersByMuxName cfg channels).get name).getD [] ↔
      ∃ c ∈ channels, ∃ p ∈ c.ports, p.unnamed = false ∧ c.muxName cfg p = name ∧
        refOwner cfg (.fromChannelPort c p) = owner
  annotations : ∀ channels owners, ownersFromChannelPortAnnotations cfg channels = .ok owners →
    ∀ key owner, owner ∈ (owners.get key).getD [] ↔
      ∃ c ∈ channels, ∃ mappings,
        parsePortMappings (c.annotation cfg.annotationPorts) = .ok mappings ∧
        ∃ p ∈ c.ports, p.unnamed = false ∧ ∃ text muxPort, mappings.get p.portName = some text ∧
          validatePortText text cfg.annotationPorts = .ok muxPort ∧
          (muxPort, p.protocolOrTcp) = key ∧ refOwner cfg (.fromChannelPort c p) = owner
  conflicts : ∀ (c : Channel) (r : ResolvedPort),
    claimant c (r.toMuxPort cfg c) = refOwner cfg (.fromChannelPort c r.port)
  assigned : ∀ portOwners c resolved,
    (findMuxPortConflicts portOwners c (muxPortsOf cfg c resolved)).1 = [] → ∀ r ∈ resolved,
      (findMuxPortConflicts portOwners c (muxPortsOf cfg c resolved)).2.get r.key =
        some (refOwner cfg (.fromChannelPort c r.port))

theorem claimOwner_eq_refOwner (claim : Claim) : claimOwner cfg claim = refOwner cfg claim.ref := rfl

theorem mem_annotatedListeners {channel : Channel} {mappings : Dict String String} {key : PortKey}
    {owner : String} :
    (key, owner) ∈ annotatedListeners cfg channel mappings ↔
      ∃ p ∈ channel.ports, p.unnamed = false ∧ ∃ text muxPort,
        mappings.get p.portName = some text ∧
        validatePortText text cfg.annotationPorts = .ok muxPort ∧
        (muxPort, p.protocolOrTcp) = key ∧ channel.owner cfg p = owner := by
  rw [annotatedListeners, List.mem_filterMap]
  refine exists_congr fun p => and_congr_right fun _ => ?_
  cases p.unnamed with
  | true => simp
  | false =>
    cases mappings.get p.portName with
    | none => simp
    | some text =>
      cases hvalid : validatePortText text cfg.annotationPorts with
      | error e => simp [hvalid]
      | ok muxPort => simp [hvalid]

theorem get_findMuxPortConflicts_of_mem {portOwners : Dict PortKey String} {channel : Channel}
    {resolved : List ResolvedPort}
    (hnil : (findMuxPortConflicts portOwners channel (muxPortsOf cfg channel resolved)).1 = [])
    {r : ResolvedPort} (hr : r ∈ resolved) :
    (findMuxPortConflicts portOwners channel (muxPortsOf cfg channel resolved)).2.get r.key =
      some (channel.owner cfg r.port) := by
  rw [get_findMuxPortConflicts hnil]
  refine Or.inr ⟨r.toMuxPort cfg channel, ?_, rfl⟩
  exact List.mem_toFinset.mpr (List.mem_map_of_mem hr)

theorem ownerTextsAgree (cfg : Config) : OwnerTextsAgree cfg where
  claim := claimOwner_eq_refOwner
  byMuxName channels name owner := by
    simp only [refOwner_fromChannelPort]
    exact mem_get_channelOwnersByMuxName
  annotations channels owners hok key owner := by
    simp only [refOwner_fromChannelPort]
    rw [mem_get_ownersFromChannelPortAnnotations hok]
    simp only [mem_annotatedListeners]
  conflicts c r := (refOwner_fromChannelPort cfg c r.port).symm
  assigned portOwners c resolved hnil r hr := by
    rw [refOwner_fromChannelPort]
    exact get_findMuxPortConflicts_of_mem hnil hr

theorem refOwner_congr {ref ref' : PortAllocationRef} (h : ref.SamePort ref') :
    refOwner cfg ref = refOwner cfg ref' := by
  obtain ⟨hns, hservice, hport⟩ := h
  rw [refOwner_eq, refOwner_eq, PortAllocationRef.hashedText, PortAllocationRef.hashedText, hns,
    hservice, hport]

/-- References without separators have the same owner only if they name the same port, as far as
the digest tells the two ports apart. -/
theorem samePort_of_refOwner_eq {ref ref' : PortAllocationRef} (h : ref.Separated)
    (h' : ref'.Separated)
    (hdigest : cfg.shortDigest ref.hashedText = cfg.shortDigest ref'.hashedText →
      ref.hashedText = ref'.hashedText)
    (howner : refOwner cfg ref = refOwner cfg ref') : ref.SamePort ref' := by
  rw [refOwner_eq, refOwner_eq] at howner
  have hlength : (cfg.shortDigest ref.hashedText).toList.length =
      (cfg.shortDigest ref'.hashedText).toList.length :=
    (cfg.length_shortDigest _).trans (cfg.length_shortDigest _).symm
  obtain ⟨hns, hservice, hmux⟩ := eq_of_ownerText_eq (h _ (by simp)).1 (h' _ (by simp)).1 hlength
    howner
  -- The port name is in the digest only.
  have htext := hdigest hmux
  rw [PortAllocationRef.hashedText, PortAllocationRef.hashedText, hns, hservice] at htext
  have hl := congrArg String.toList htext
  simp only [String.toList_append] at hl
  exact ⟨hns, hservice, String.toList_inj.mp (List.append_cancel_left hl)⟩

theorem key_eq_iff {ref ref' : PortAllocationRef} (h' : ref'.Separated) :
    ref.key = ref'.key ↔ ref = ref' :=
  ⟨PortAllocationRef.eq_of_key_eq h'.plain, fun heq => heq ▸ rfl⟩

/-! ## The key of a stored claim -/

namespace MuxState

theorem keyed_of_reached {st st' : MuxState} (h : Reached cfg st st')
    (hst : WellKeyed st.claims ∧ Normalized st.claims) :
    WellKeyed st'.claims ∧ Normalized st'.claims := by
  induction h with
  | refl => exact hst
  | tail _ hstep ih =>
    cases hstep with
    | allocate c p st => exact ⟨wellKeyed_allocate ih.1 c p, normalized_allocate ih.2 c p⟩
    | recordChannelClaims hrecord =>
      exact recordChannelClaims_invariant (fun st => WellKeyed st.claims ∧ Normalized st.claims)
        (fun _ _ _ _ _ hst => ⟨wellKeyed_setClaim hst.1 _ _ _ _, normalized_setClaim hst.2 _ _ _ _⟩)
        ih hrecord

/-- A claim is stored under the key of its reference, and what a mux saved is loaded under the keys
it had. -/
structure Reloads (st : MuxState) : Prop where
  keyed : ∀ key claim, st.claims.get key = some claim → claim.ref.key = key
  loaded : ∀ store : ConfigMapAllocationStore, ∃ doc,
    store.load (some (store.save st.toState)) = .ok (some doc) ∧
      ∀ key, (claimsByKey (stateClaims (some doc))).get key = st.claims.get key

theorem reloads_of_reached {st st' : MuxState} (h : Reached cfg st st')
    (hst : WellKeyed st.claims ∧ Normalized st.claims) : st'.Reloads := by
  obtain ⟨hkeyed, hnormalized⟩ := keyed_of_reached h hst
  refine ⟨hkeyed, fun store => ⟨_, store.load_save st'.toState, fun key => ?_⟩⟩
  exact claimsByKey_toState hkeyed hnormalized key

end MuxState

/-- References without separators have one key only if they are equal; all five places spell one
owner for a port, and, as far as the digest tells the ports apart, different owners for different
ports; what a pass stores is loaded under the same keys. -/
theorem port_encodings_agree (cfg : Config) (ref ref' : PortAllocationRef) (h : ref.Separated)
    (h' : ref'.Separated) :
    (ref.key = ref'.key ↔ ref = ref') ∧ OwnerTextsAgree cfg ∧
      (ref.SamePort ref' → refOwner cfg ref = refOwner cfg ref') ∧
      ((cfg.shortDigest ref.hashedText = cfg.shortDigest ref'.hashedText →
          ref.hashedText = ref'.hashedText) →
        refOwner cfg ref = refOwner cfg ref' → ref.SamePort ref') ∧
      ∀ muxKey ranges state channels reservedPorts recovered st,
        MuxState.Reached cfg
          (MuxState.init muxKey ranges state channels reservedPorts recovered) st → st.Reloads :=
  ⟨key_eq_iff h', ownerTextsAgree cfg, refOwner_congr, samePort_of_refOwner_eq h h',
    fun _ _ _ _ _ _ _ hreached =>
      MuxState.reloads_of_reached hreached ⟨MuxState.wellKeyed_init, MuxState.normalized_init⟩⟩

instance (ref : PortAllocationRef) : Decidable ref.Separated :=
  inferInstanceAs (Decidable (∀ field ∈ _, _))

theorem port_encodings_agree_sample :
    let web : PortAllocationRef := ⟨"default", "web", "http", "TCP"⟩
    let api : PortAllocationRef := ⟨"default", "api", "http", "TCP"⟩
    (web.key = api.key ↔ web = api) ∧ OwnerTextsAgree sampleConfig ∧
      (web.SamePort api → refOwner sampleConfig web = refOwner sampleConfig api) ∧
      (refOwner sampleConfig web = refOwner sampleConfig api → web.SamePort api) ∧
      ∀ muxKey ranges state channels reservedPorts recovered st,
        MuxState.Reached sampleConfig
          (MuxState.init muxKey ranges state channels reservedPorts recovered) st → st.Reloads := by
  intro web api
  obtain ⟨hkey, hagree, hsame, howner, hreloads⟩ :=
    port_encodings_agree sampleConfig web api (by decide +kernel) (by decide +kernel)
  exact ⟨hkey, hagree, hsame, howner (by decide +kernel), hreloads⟩

end SvcLbMux
