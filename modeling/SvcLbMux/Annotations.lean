import SvcLbMux.Library.Loop
import SvcLbMux.Models

namespace SvcLbMux

open Py

/-- What a user asks for a port: a fixed mux port, or an allocated one. -/
inductive PortRequest where
  | auto
  | port (number : Int)
deriving DecidableEq

def autoPort : String := "auto"

def validatePortInt (port : Int) (field : String) : Except ValueError Int :=
  if 1 ≤ port ∧ port ≤ 65535 then .ok port
  else .error ⟨"Invalid " ++ field ++ " port " ++ str port ++ "; expected 1-65535"⟩

/-- `validate_port_number` on a text; `mux_state` and `port_allocations` have it too. -/
def validatePortText (value field : String) : Except ValueError Int :=
  match int value with
  | none => .error ⟨"Invalid " ++ field ++ " port " ++ reprText value ++ "; expected integer"⟩
  | some port => validatePortInt port field

section ExternalPorts

variable (cfg : Config)

def parseExternalPortsItem (ports : Dict String PortRequest) (item : String) :
    Except ValueError (Dict String PortRequest) :=
  let item := strip item
  if item = "" then .ok ports
  else match cut item ":" with
    | none =>
      .error ⟨"Invalid " ++ cfg.annotationExternalPorts ++ " entry " ++ reprText item ++
        "; expected name:port"⟩
    | some (name, portText) =>
      let name := strip name
      if name = "" then
        .error ⟨"Invalid " ++ cfg.annotationExternalPorts ++ " entry " ++ reprText item ++
          "; port name is required"⟩
      else if lower (strip portText) = autoPort then .ok (ports.set name .auto)
      else
        (validatePortText (strip portText) cfg.annotationExternalPorts).map fun port =>
          ports.set name (.port port)

def parseExternalPortsAnnotation (value : String) : Except ValueError (Dict String PortRequest) :=
  if value = "" then .ok Dict.empty
  else (split value ',').foldlM (parseExternalPortsItem cfg) Dict.empty

end ExternalPorts

/-- The lenient reading of `external-ports` in `mux_state`: which names ask for `auto`. -/
def externalPortModes (value : String) : Dict String String :=
  if value = "" then Dict.empty
  else (split value ',').foldl (fun modes item =>
    let item := strip item
    if item = "" then modes
    else match cut item ":" with
      | none => modes
      | some (name, portText) =>
        if lower (strip portText) = autoPort then modes.set (strip name) autoPort else modes)
    Dict.empty

/-- One item `name:channel_port->mux_port`. -/
def formatPortMapping (mapping : String × Int × Int) : String :=
  mapping.1 ++ ":" ++ str mapping.2.1 ++ "->" ++ str mapping.2.2

def Annotations.formatChannelPortAnnotation (ports : List (String × Int × Int)) : String :=
  String.intercalate ", " (ports.map formatPortMapping)

def parsePortMapping (mappings : Dict String String) (item : String) :
    Except ValueError (Dict String String) :=
  let item := strip item
  if item = "" then .ok mappings
  else match cut item ":" with
    | none => .ok mappings
    | some (portName, rest) =>
      if (cut item "->").isNone then .ok mappings
      else match cut rest "->" with
        -- The arrow stands before the colon only: the unpacking of `rest.split("->", 1)` fails.
        | none => .error ⟨"not enough values to unpack (expected 2, got 1)"⟩
        | some (_, muxPort) => .ok (mappings.set (strip portName) (strip muxPort))

/-- `{port_name: mux_port}` of a `ports` annotation. -/
def parsePortMappings (value : String) : Except ValueError (Dict String String) :=
  if value = "" then .ok Dict.empty else (split value ',').foldlM parsePortMapping Dict.empty

/-! ## Port numbers -/

theorem validatePortInt_eq_ok {port n : Int} {field : String} :
    validatePortInt port field = .ok n ↔ n = port ∧ 1 ≤ port ∧ port ≤ 65535 := by
  unfold validatePortInt
  split_ifs with h
  · simp [h, eq_comm]
  · simp [h]

theorem validatePortText_eq_ok {value field : String} {n : Int} :
    validatePortText value field = .ok n ↔ int value = some n ∧ 1 ≤ n ∧ n ≤ 65535 := by
  unfold validatePortText
  cases int value with
  | none => simp
  | some m =>
    simp only [validatePortInt_eq_ok, Option.some.injEq]
    constructor
    · rintro ⟨rfl, h⟩
      exact ⟨rfl, h⟩
    · rintro ⟨rfl, h⟩
      exact ⟨rfl, h⟩

theorem validatePortText_str {n : Int} (field : String) (h : 1 ≤ n ∧ n ≤ 65535) :
    validatePortText (str n) field = .ok n := by
  obtain ⟨k, rfl⟩ := Int.eq_ofNat_of_zero_le (by omega : 0 ≤ n)
  refine validatePortText_eq_ok.mpr ⟨int_str ?_, h⟩
  have hk : k < 10 ^ 5 := by omega
  exact ((Nat.length_toDigits_le_iff (by decide) (by decide)).mpr hk).trans (by decide)

def PortNumbersInRange (ports : Dict String PortRequest) : Prop :=
  ∀ name n, ports.get name = some (.port n) → 1 ≤ n ∧ n ≤ 65535

theorem portNumbersInRange_set {ports : Dict String PortRequest} (h : PortNumbersInRange ports)
    (name : String) {request : PortRequest}
    (hreq : ∀ n, request = .port n → 1 ≤ n ∧ n ≤ 65535) :
    PortNumbersInRange (ports.set name request) := by
  intro j n hj
  rw [Dict.get_set] at hj
  split_ifs at hj
  · exact hreq n (Option.some.inj hj)
  · exact h j n hj

theorem parseExternalPortsItem_inRange {cfg : Config} {ports ports' : Dict String PortRequest}
    {item : String} (hports : PortNumbersInRange ports)
    (h : parseExternalPortsItem cfg ports item = .ok ports') : PortNumbersInRange ports' := by
  unfold parseExternalPortsItem at h
  dsimp only at h
  split at h
  · exact Except.ok.inj h ▸ hports
  split at h
  · cases h
  split at h
  · cases h
  split at h
  · obtain rfl := Except.ok.inj h
    exact portNumbersInRange_set hports _ (by simp)
  · rename_i name portText _ _ _
    cases hv : validatePortText (strip portText) cfg.annotationExternalPorts with
    | error e => simp [hv, Except.map] at h
    | ok m =>
      simp only [hv, Except.map, Except.ok.injEq] at h
      subst h
      refine portNumbersInRange_set hports _ ?_
      rintro n ⟨⟩
      exact (validatePortText_eq_ok.mp hv).2

/-- The numbers that `external-ports` asks for are port numbers. -/
theorem parseExternalPortsAnnotation_inRange {cfg : Config} {value : String}
    {ports : Dict String PortRequest} (h : parseExternalPortsAnnotation cfg value = .ok ports) :
    PortNumbersInRange ports := by
  have hempty : PortNumbersInRange Dict.empty := by
    intro name n hn
    simp at hn
  unfold parseExternalPortsAnnotation at h
  split at h
  · exact Except.ok.inj h ▸ hempty
  · exact Loop.foldlM_invariant PortNumbersInRange hempty
      (fun _ _ _ hs hstep => parseExternalPortsItem_inRange hs hstep) h

/-! ## The round trip of the `ports` annotation -/

/-- A port name that the `ports` annotation can carry. -/
structure PlainName (name : String) : Prop where
  ne_empty : name ≠ ""
  comma : ',' ∉ name.toList
  colon : ':' ∉ name.toList
  tight : strip name = name

theorem plainName_of_isDnsLabel {name : String} (h : isDnsLabel name = true) : PlainName name where
  ne_empty := ne_empty_of_isDnsLabel h
  comma := notMem_of_isDnsLabel h (by decide)
  colon := notMem_of_isDnsLabel h (by decide)
  tight := strip_eq_self fun _ hc => isSpace_of_isDnsLabel h hc

/-- The mux ports by name, as the annotation lists them. -/
def mappingTexts (ports : List (String × Int × Int)) : List (String × String) :=
  ports.map fun m => (m.1, str m.2.2)

/-- What the controller writes into the annotation: plain names and numbers that are not
negative. -/
structure PlainMapping (m : String × Int × Int) : Prop where
  name : PlainName m.1
  channelPort : 0 ≤ m.2.1
  muxPort : 0 ≤ m.2.2

theorem toList_formatPortMapping (m : String × Int × Int) :
    (formatPortMapping m).toList =
      m.1.toList ++ ':' :: ((str m.2.1).toList ++ '-' :: '>' :: (str m.2.2).toList) := by
  simp [formatPortMapping, String.toList_append]

theorem isDigit_of_mem_str_int {n : ℤ} (hn : 0 ≤ n) {c : Char} (h : c ∈ (str n).toList) :
    c.isDigit = true := by
  obtain ⟨k, rfl⟩ := Int.eq_ofNat_of_zero_le hn
  exact isDigit_of_mem_str h

theorem notMem_str {n : ℤ} (hn : 0 ≤ n) {c : Char} (hc : c.isDigit = false) :
    c ∉ (str n).toList :=
  fun h => by simp [isDigit_of_mem_str_int hn h] at hc

theorem stripChars_formatPortMapping {m : String × Int × Int} (hm : PlainMapping m) :
    stripChars (formatPortMapping m).toList = (formatPortMapping m).toList := by
  have hne : m.1.toList ≠ [] :=
    fun h => hm.name.ne_empty (String.toList_inj.mp (by simpa using h))
  rw [toList_formatPortMapping]
  apply stripChars_eq_self
  · intro c hc
    rw [List.head?_append_of_ne_nil _ hne] at hc
    exact head_of_stripChars_eq_self ((strip_eq_self_iff m.1).mp hm.name.tight) c hc
  · intro c hc
    have hmem : c ∈ (str m.2.2).toList.getLast? := by
      obtain ⟨k, hk⟩ := Int.eq_ofNat_of_zero_le hm.muxPort
      have hmux : (str m.2.2).toList ≠ [] := by
        rw [hk]
        exact str_toList_ne_nil k
      have hsplit : m.1.toList ++ ':' :: ((str m.2.1).toList ++ '-' :: '>' :: (str m.2.2).toList) =
          (m.1.toList ++ ':' :: ((str m.2.1).toList ++ ['-', '>'])) ++ (str m.2.2).toList := by
        simp
      rwa [hsplit, List.getLast?_append_of_ne_nil _ hmux] at hc
    exact isSpace_of_isDigit (isDigit_of_mem_str_int hm.muxPort (List.mem_of_getLast? hmem))

theorem comma_notMem_formatPortMapping {m : String × Int × Int} (hm : PlainMapping m) :
    ',' ∉ (formatPortMapping m).toList := by
  rw [toList_formatPortMapping]
  simp only [List.mem_append, List.mem_cons, not_or]
  exact ⟨hm.name.comma, by decide, notMem_str hm.channelPort (by decide), by decide, by decide,
    notMem_str hm.muxPort (by decide)⟩

def arrowText (m : String × Int × Int) : String :=
  String.ofList ((str m.2.1).toList ++ '-' :: '>' :: (str m.2.2).toList)

theorem formatPortMapping_ne_empty (m : String × Int × Int) : formatPortMapping m ≠ "" := by
  intro h
  have hl := congrArg String.toList h
  rw [toList_formatPortMapping] at hl
  simp at hl

theorem strip_eq_formatPortMapping {m : String × Int × Int} {item : String}
    (hitem : stripChars item.toList = (formatPortMapping m).toList) :
    strip item = formatPortMapping m := by
  rw [strip, hitem, String.ofList_toList]

section Cuts

variable {m : String × Int × Int} (hm : PlainMapping m)

include hm

theorem cut_formatPortMapping : cut (formatPortMapping m) ":" = some (m.1, arrowText m) := by
  rw [cut, toList_formatPortMapping]
  simp [arrowText, cutChars_singleton hm.name.colon]

theorem cut_arrowText : cut (arrowText m) "->" = some (str m.2.1, str m.2.2) := by
  rw [cut, arrowText, String.toList_ofList]
  simp [cutChars_pair (by decide : '-' ≠ '>') (notMem_str hm.channelPort (by decide))]

theorem strip_muxPort : strip (str m.2.2) = str m.2.2 := by
  obtain ⟨k, hk⟩ := Int.eq_ofNat_of_zero_le hm.muxPort
  rw [hk]
  exact strip_str k

end Cuts

theorem isNone_cut_formatPortMapping (m : String × Int × Int) :
    (cut (formatPortMapping m) "->").isNone = false := by
  have harrow := cutChars_pair_isSome (x := '-') (y := '>')
    (m.1.toList ++ ':' :: (str m.2.1).toList) (str m.2.2).toList
  rw [cut, toList_formatPortMapping]
  simpa using harrow

/-- An item is read back, with or without the space that joins it to the one before. -/
theorem parsePortMapping_format {m : String × Int × Int} (hm : PlainMapping m) {item : String}
    (hitem : stripChars item.toList = (formatPortMapping m).toList)
    (mappings : Dict String String) :
    parsePortMapping mappings item = .ok (mappings.set m.1 (str m.2.2)) := by
  simp only [parsePortMapping, strip_eq_formatPortMapping hitem, formatPortMapping_ne_empty,
    if_false, cut_formatPortMapping hm, isNone_cut_formatPortMapping, cut_arrowText hm,
    hm.name.tight, strip_muxPort hm, Bool.false_eq_true]

section Joined

variable {m : String × Int × Int} {rest : List (String × Int × Int)}

/-- The joined text, its separators read as a comma with a space in front of the next item. -/
theorem toList_joined : (Annotations.formatChannelPortAnnotation (m :: rest)).toList =
    [','].intercalate ((formatPortMapping m).toList ::
      rest.map fun k => ' ' :: (formatPortMapping k).toList) := by
  rw [Annotations.formatChannelPortAnnotation, String.toList_intercalate, List.map_cons, List.map_cons]
  have hpair := intercalate_pair ',' ' ' (formatPortMapping m).toList
    ((rest.map formatPortMapping).map String.toList)
  simpa [List.map_map, Function.comp_def] using hpair

theorem split_joined (h : ∀ k ∈ m :: rest, PlainMapping k) :
    split (Annotations.formatChannelPortAnnotation (m :: rest)) ',' =
      formatPortMapping m ::
        rest.map fun k => String.ofList (' ' :: (formatPortMapping k).toList) := by
  rw [split, toList_joined, List.splitOn_intercalate ',' _ (by simp)]
  · simp [List.map_map, Function.comp_def]
  · intro l hl
    rcases List.mem_cons.mp hl with rfl | hl
    · exact comma_notMem_formatPortMapping (h m (by simp))
    · obtain ⟨k, hk, rfl⟩ := List.mem_map.mp hl
      simpa using comma_notMem_formatPortMapping (h k (List.mem_cons_of_mem _ hk))

end Joined

theorem joined_ne_empty {ports : List (String × Int × Int)} (hne : ports ≠ []) :
    Annotations.formatChannelPortAnnotation ports ≠ "" := by
  obtain ⟨m, rest, rfl⟩ := List.exists_cons_of_ne_nil hne
  intro he
  have hl := congrArg String.toList he
  rw [toList_joined] at hl
  have hfirst : (formatPortMapping m).toList ≠ [] := by
    rw [toList_formatPortMapping]
    simp
  cases rest with
  | nil => exact hfirst (by simpa using hl)
  | cons k rest => simp [List.intercalate_cons_cons, hfirst] at hl

/-- What reads every item, reads the whole annotation. The items after the first begin with the
space of the separator. -/
theorem foldlM_split_format {β : Type*} {ports : List (String × Int × Int)}
    {read : Dict String β → String → Except ValueError (Dict String β)}
    {value : String × Int × Int → β} (h : ∀ m ∈ ports, PlainMapping m)
    (hread : ∀ m ∈ ports, ∀ item, stripChars item.toList = (formatPortMapping m).toList →
      ∀ d, read d item = .ok (d.set m.1 (value m))) (hne : ports ≠ []) :
    (split (Annotations.formatChannelPortAnnotation ports) ',').foldlM read Dict.empty =
      .ok (Dict.ofList (ports.map fun m => (m.1, value m))) := by
  have hrest : ∀ (rest : List (String × Int × Int)) (d : Dict String β), (∀ m ∈ rest, m ∈ ports) →
      (rest.map fun m => String.ofList (' ' :: (formatPortMapping m).toList)).foldlM read d =
        .ok (d.updateList (rest.map fun m => (m.1, value m))) := by
    intro rest
    induction rest with
    | nil => exact fun _ _ => rfl
    | cons m rest ih =>
      intro d hsub
      have hm := hsub m (by simp)
      have hitem : stripChars (String.ofList (' ' :: (formatPortMapping m).toList)).toList =
          (formatPortMapping m).toList := by
        rw [String.toList_ofList, stripChars_cons_of_isSpace (by decide),
          stripChars_formatPortMapping (h m hm)]
      rw [List.map_cons, List.foldlM_cons, hread m hm _ hitem]
      exact ih _ fun k hk => hsub k (List.mem_cons_of_mem _ hk)
  cases ports with
  | nil => exact absurd rfl hne
  | cons m rest =>
    rw [split_joined h, List.foldlM_cons, hread m (by simp) _
      (stripChars_formatPortMapping (h m (by simp)))]
    exact hrest rest _ fun k hk => List.mem_cons_of_mem _ hk

/-- What the controller writes into a `ports` annotation, it reads back. -/
theorem parsePortMappings_format {ports : List (String × Int × Int)}
    (h : ∀ m ∈ ports, PlainMapping m) :
    parsePortMappings (Annotations.formatChannelPortAnnotation ports) =
      .ok (Dict.ofList (mappingTexts ports)) := by
  rcases eq_or_ne ports [] with rfl | hne
  · rfl
  · rw [parsePortMappings, if_neg (joined_ne_empty hne)]
    exact foldlM_split_format h (fun m hm _ hitem d => parsePortMapping_format (h m hm) hitem d) hne

end SvcLbMux
