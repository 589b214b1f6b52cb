import SvcLbMux.DebugState
import SvcLbMux.ExclusivePorts

namespace SvcLbMux

open Py

/-! ## Writing and reading -/

/-- Python writes a number when it does not have more digits than `int()` reads. -/
def Writable (n : Int) : Prop := (Nat.toDigits 10 n.natAbs).length ≤ maxStrDigits

instance (n : Int) : Decidable (Writable n) :=
  inferInstanceAs (Decidable (_ ≤ _))

/-- The text that is written into the annotation; a number with too many digits raises. -/
def writeChannelPortAnnotation (ports : List (String × Int × Int)) : Except ValueError String :=
  if ∀ m ∈ ports, Writable m.2.1 ∧ Writable m.2.2 then
    .ok (Annotations.formatChannelPortAnnotation ports)
  else .error ⟨"Exceeds the limit (4300 digits) for integer string conversion; " ++
    "use sys.set_int_max_str_digits() to increase the limit"⟩

/-- One item in `muxdebug`. A number that cannot be read is passed over. -/
def parseChannelPortMapping (mappings : Dict String Int) (item : String) :
    Except ValueError (Dict String Int) :=
  let item := strip item
  if item = "" then .ok mappings
  else match cut item ":" with
    | none => .ok mappings
    | some (portName, rest) =>
      if (cut item "->").isNone then .ok mappings
      else match cut rest "->" with
        | none => .error ⟨"not enough values to unpack (expected 2, got 1)"⟩
        | some (_, muxPortText) =>
          match int (strip muxPortText) with
          | none => .ok mappings
          | some muxPort => .ok (mappings.set (strip portName) muxPort)

/-- `_parse_channel_port_mappings` of `muxdebug`. -/
def parseChannelPortMappings (value : String) : Except ValueError (Dict String Int) :=
  if value = "" then .ok Dict.empty
  else (split value ',').foldlM parseChannelPortMapping Dict.empty

/-! ## The round trip -/

theorem int_str_of_writable {n : Int} (hn : 0 ≤ n) (h : Writable n) : int (str n) = some n := by
  obtain ⟨k, rfl⟩ := Int.eq_ofNat_of_zero_le hn
  exact int_str h

section Items

variable {m : String × Int × Int} {item : String} (hm : PlainMapping m)
  (hitem : stripChars item.toList = (formatPortMapping m).toList) (hwritable : Writable m.2.2)

include hm hitem hwritable

theorem parseMuxPortItem_format (d : Dict String Int) :
    parseMuxPortItem d item = .ok (d.set m.1 m.2.2) := by
  simp only [parseMuxPortItem, strip_eq_formatPortMapping hitem, cut_formatPortMapping hm,
    muxPortText, cut_arrowText hm, strip_muxPort hm, parseInt,
    int_str_of_writable hm.muxPort hwritable, hm.name.tight]
  rfl

theorem parseChannelPortMapping_format (d : Dict String Int) :
    parseChannelPortMapping d item = .ok (d.set m.1 m.2.2) := by
  simp only [parseChannelPortMapping, strip_eq_formatPortMapping hitem, formatPortMapping_ne_empty,
    if_false, cut_formatPortMapping hm, isNone_cut_formatPortMapping, cut_arrowText hm,
    hm.name.tight, strip_muxPort hm, int_str_of_writable hm.muxPort hwritable, Bool.false_eq_true]

end Items

section Texts

variable {ports : List (String × Int × Int)} (h : ∀ m ∈ ports, PlainMapping m)
  (hwritable : ∀ m ∈ ports, Writable m.2.2)

include h hwritable

theorem parseMuxPortAnnotation_format :
    DebugState.parseMuxPortAnnotation (Annotations.formatChannelPortAnnotation ports) =
      .ok (Dict.ofList (ports.map fun m => (m.1, m.2.2))) := by
  rcases eq_or_ne ports [] with rfl | hne
  · rfl
  · rw [DebugState.parseMuxPortAnnotation, if_neg (joined_ne_empty hne)]
    exact foldlM_split_format h
      (fun m hm _ hitem d => parseMuxPortItem_format (h m hm) hitem (hwritable m hm) d) hne

theorem parseChannelPortMappings_format :
    parseChannelPortMappings (Annotations.formatChannelPortAnnotation ports) =
      .ok (Dict.ofList (ports.map fun m => (m.1, m.2.2))) := by
  rcases eq_or_ne ports [] with rfl | hne
  · rfl
  · rw [parseChannelPortMappings, if_neg (joined_ne_empty hne)]
    exact foldlM_split_format h
      (fun m hm _ hitem d => parseChannelPortMapping_format (h m hm) hitem (hwritable m hm) d) hne

end Texts

/-- A text is written where all numbers can be, and all three readers read it back, entry by entry;
and the claims of an accepted channel carry the mux ports that it resolved to. -/
theorem ports_annotation_round_trip (cfg : Config) :
    (∀ ports, (∃ text, writeChannelPortAnnotation ports = .ok text) ↔
      ∀ m ∈ ports, Writable m.2.1 ∧ Writable m.2.2) ∧
    (∀ (ports : List (String × Int × Int)) (text : String),
      (∀ m ∈ ports, PlainName m.1 ∧ 0 < m.2.1 ∧ 0 < m.2.2) → (ports.map Prod.fst).Nodup →
      writeChannelPortAnnotation ports = .ok text →
        (parsePortMappings text).map Dict.entries =
          .ok (ports.map fun m => (m.1, str m.2.2)) ∧
        (DebugState.parseMuxPortAnnotation text).map Dict.entries =
          .ok (ports.map fun m => (m.1, m.2.2)) ∧
        (parseChannelPortMappings text).map Dict.entries =
          .ok (ports.map fun m => (m.1, m.2.2))) ∧
    (∀ (input : AdmittedPass) (c : Channel) (s s' : LoopState) (resolved : List ResolvedPort),
      PassMeets cfg input.toPassInput c s →
      channelStep cfg (input.mux.namespace_, input.mux.name) (muxPortLimit cfg input.mux).1 s c =
        .ok (s', .accepted resolved) →
        (processChannelPorts cfg c s.muxState).1 = .ok resolved ∧
        resolved.map ResolvedPort.port = c.ports ∧
        ∀ r ∈ resolved, ∃ claim, s'.muxState.claims.get (c.claimKey r.port) = some claim ∧
          claimMuxPort claim = some r.muxPort) := by
  refine ⟨fun ports => ?_, fun ports text hports hnodup hwrite => ?_,
    fun input c s s' resolved hmeets hstep => ?_⟩
  · unfold writeChannelPortAnnotation
    split_ifs with hwritable
    · exact iff_of_true ⟨_, rfl⟩ hwritable
    · exact iff_of_false (by simp) hwritable
  · have hplain : ∀ m ∈ ports, PlainMapping m := fun m hm =>
      ⟨(hports m hm).1, (hports m hm).2.1.le, (hports m hm).2.2.le⟩
    unfold writeChannelPortAnnotation at hwrite
    split_ifs at hwrite with hwritable
    obtain rfl := Except.ok.inj hwrite
    have hnames : ∀ {β : Type} (value : String × Int × Int → β),
        (Dict.ofList (ports.map fun m => (m.1, value m))).entries =
          ports.map fun m => (m.1, value m) := fun value =>
      Dict.entries_ofList_of_nodup (by simpa [Function.comp_def] using hnodup)
    have hmux : ∀ m ∈ ports, Writable m.2.2 := fun m hm => (hwritable m hm).2
    rw [parsePortMappings_format hplain, parseMuxPortAnnotation_format hplain hmux,
      parseChannelPortMappings_format hplain hmux]
    exact ⟨congrArg Except.ok (hnames fun m => str m.2.2),
      congrArg Except.ok (hnames fun m => m.2.2), congrArg Except.ok (hnames fun m => m.2.2)⟩
  · obtain ⟨start, hstart, before, after, log, hchannels, -⟩ := id hmeets
    obtain ⟨hsound, -⟩ := sound_of_meets hstart hmeets
    have hc : c ∈ input.channels := mem_sortChannels.mp (by simp [hchannels])
    have haccepted := acceptedTurn_of_step hstep
    obtain ⟨hresolved, -⟩ := ports_of_processChannelPorts haccepted.resolves
    refine ⟨haccepted.resolves, hresolved, fun r hr => ?_⟩
    obtain ⟨-, hclaim⟩ := recorded_of_accepted (input.admitted c hc) hsound.wellKeyed hsound.ranges
      hstep hr
    exact ⟨_, hclaim, claimMuxPort_ofRef _ _ _ _⟩

theorem ports_annotation_round_trip_twoPorts :
    writeChannelPortAnnotation [("http", 80, 9000), ("https", 443, 443)] =
        .ok "http:80->9000, https:443->443" ∧
      (parsePortMappings "http:80->9000, https:443->443").map Dict.entries =
        .ok [("http", "9000"), ("https", "443")] ∧
      (DebugState.parseMuxPortAnnotation "http:80->9000, https:443->443").map Dict.entries =
        .ok [("http", 9000), ("https", 443)] ∧
      (parseChannelPortMappings "http:80->9000, https:443->443").map Dict.entries =
        .ok [("http", 9000), ("https", 443)] := by
  have hwritten : writeChannelPortAnnotation [("http", 80, 9000), ("https", 443, 443)] =
      .ok "http:80->9000, https:443->443" := by decide +kernel
  have hports : ∀ m ∈ [(("http" : String), (80 : Int), (9000 : Int)), ("https", 443, 443)],
      PlainName m.1 ∧ 0 < m.2.1 ∧ 0 < m.2.2 := by
    simp only [List.forall_mem_cons, List.not_mem_nil, IsEmpty.forall_iff, implies_true, and_true]
    exact ⟨⟨plainName_of_isDnsLabel (by decide +kernel), by decide⟩,
      plainName_of_isDnsLabel (by decide +kernel), by decide⟩
  exact ⟨hwritten,
    (ports_annotation_round_trip sampleConfig).2.1 _ _ hports (by decide) hwritten⟩

/-- The readers differ on what the controller does not write: an item without an arrow. -/
example : (parsePortMappings "http:9000").map Dict.entries = .ok [] ∧
    (DebugState.parseMuxPortAnnotation "http:9000").map Dict.entries = .ok [("http", 9000)] ∧
    (parseChannelPortMappings "http:9000").map Dict.entries = .ok [] := by
  decide +kernel

end SvcLbMux
