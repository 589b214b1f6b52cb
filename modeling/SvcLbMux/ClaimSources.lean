import SvcLbMux.Rejections

namespace SvcLbMux

open Py

/-! ## The items of the annotation -/

/-- The name and the text of an item, without white space and the text in lower case. -/
def externalPortsRequest (item : String) : Option (String × String) :=
  (cut (strip item) ":").map fun parts => (strip parts.1, lower (strip parts.2))

def externalPortsItems (value : String) : List (String × String) :=
  (split value ',').filterMap externalPortsRequest

def lastRequest (items : List (String × String)) (name : String) : Option String :=
  (items.reverse.find? fun item => item.1 = name).map Prod.snd

/-- Some item for the name asks for `auto`, but the last one does not. -/
def OverriddenAuto (items : List (String × String)) (name : String) : Prop :=
  (name, autoPort) ∈ items ∧ lastRequest items name ≠ some autoPort

instance (items : List (String × String)) (name : String) : Decidable (OverriddenAuto items name) :=
  inferInstanceAs (Decidable (_ ∧ _))

/-- The resolver takes the mux port of a declared port from the allocator. -/
def FromAllocator (cfg : Config) (c : Channel) (p : ServicePort) : Prop :=
  ∃ explicitPorts, channelPortClaims cfg c = .ok explicitPorts ∧
    explicitPorts.get p.portName = some .auto

theorem lastRequest_cons (item : String × String) (items : List (String × String)) (name : String) :
    lastRequest (item :: items) name =
      (lastRequest items name).or (if item.1 = name then some item.2 else none) := by
  rw [lastRequest, List.reverse_cons, List.find?_append, Option.map_or, lastRequest]
  congr 1
  by_cases h : item.1 = name <;> simp [h]

theorem mem_of_lastRequest {items : List (String × String)} {name text : String}
    (h : lastRequest items name = some text) : (name, text) ∈ items := by
  obtain ⟨⟨n, t⟩, hfind, rfl⟩ := Option.map_eq_some_iff.mp h
  obtain rfl : n = name := by simpa using List.find?_some hfind
  exact List.mem_reverse.mp (List.mem_of_find?_eq_some hfind)

/-! ## The two readings -/

theorem externalPortsRequest_of_empty {item : String} (h : strip item = "") :
    externalPortsRequest item = none := by
  rw [externalPortsRequest, h]
  decide +kernel

/-- The lenient reading remembers every `auto`. -/
theorem get_externalPortModes_iff (value name : String) :
    (externalPortModes value).get name = some autoPort ↔
      (name, autoPort) ∈ externalPortsItems value := by
  unfold externalPortModes
  split_ifs with hempty
  · have hnone : externalPortsItems "" = [] := by decide +kernel
    simp [hempty, hnone]
  · refine (Loop.foldl_adds (fun modes name => modes.get name = some autoPort)
      (fun item name => externalPortsRequest item = some (name, autoPort)) (split value ',')
      (fun modes item _ name => ?_) Dict.empty name).trans ?_
    · dsimp only
      split_ifs with hitem
      · simp [externalPortsRequest_of_empty hitem]
      · rw [externalPortsRequest]
        cases cut (strip item) ":" with
        | none => simp
        | some parts =>
          obtain ⟨itemName, portText⟩ := parts
          dsimp only
          split_ifs with hauto
          · rw [Dict.get_set]
            by_cases hname : strip itemName = name <;> simp [hname, hauto]
          · simp [hauto]
    · simp [externalPortsItems]

theorem get_parseExternalPortsItem_iff {cfg : Config} {ports ports' : Dict String PortRequest}
    {item : String} (h : parseExternalPortsItem cfg ports item = .ok ports') (name : String) :
    ports'.get name = some .auto ↔
      externalPortsRequest item = some (name, autoPort) ∨
        ((∀ text, externalPortsRequest item ≠ some (name, text)) ∧ ports.get name = some .auto) := by
  unfold parseExternalPortsItem at h
  dsimp only at h
  split_ifs at h with hitem
  · obtain rfl := Except.ok.inj h
    simp [externalPortsRequest_of_empty hitem]
  · rw [externalPortsRequest]
    cases hcut : cut (strip item) ":" with
    | none => simp [hcut] at h
    | some parts =>
      obtain ⟨itemName, portText⟩ := parts
      simp only [hcut] at h
      split_ifs at h with hname hauto
      · obtain rfl := Except.ok.inj h
        rw [Dict.get_set]
        by_cases hsame : strip itemName = name <;> simp [hsame, hauto]
      · cases hnumber : validatePortText (strip portText) cfg.annotationExternalPorts with
        | error e => simp [hnumber, Except.map] at h
        | ok n =>
          simp only [hnumber, Except.map, Except.ok.injEq] at h
          subst h
          rw [Dict.get_set]
          by_cases hsame : strip itemName = name <;> simp [hsame, hauto]

theorem get_foldlM_parseExternalPortsItem_iff {cfg : Config} {pieces : List String}
    {ports ports' : Dict String PortRequest}
    (h : pieces.foldlM (parseExternalPortsItem cfg) ports = .ok ports') (name : String) :
    ports'.get name = some .auto ↔
      lastRequest (pieces.filterMap externalPortsRequest) name = some autoPort ∨
        (lastRequest (pieces.filterMap externalPortsRequest) name = none ∧
          ports.get name = some .auto) := by
  induction pieces generalizing ports with
  | nil =>
    obtain rfl := Except.ok.inj h
    simp [lastRequest]
  | cons item pieces ih =>
    obtain ⟨next, hitem, hrest⟩ := Loop.foldlM_cons_eq_ok.mp h
    rw [ih hrest, get_parseExternalPortsItem_iff hitem name, List.filterMap_cons]
    cases externalPortsRequest item with
    | none => simp
    | some request =>
      obtain ⟨itemName, text⟩ := request
      rw [lastRequest_cons]
      by_cases hsame : itemName = name <;>
        cases lastRequest (pieces.filterMap externalPortsRequest) name <;> simp [hsame]

theorem get_parseExternalPortsAnnotation_iff {cfg : Config} {value : String}
    {ports : Dict String PortRequest} (h : parseExternalPortsAnnotation cfg value = .ok ports)
    (name : String) :
    ports.get name = some .auto ↔ lastRequest (externalPortsItems value) name = some autoPort := by
  unfold parseExternalPortsAnnotation at h
  split_ifs at h with hempty
  · obtain rfl := Except.ok.inj h
    have hnone : externalPortsItems "" = [] := by decide +kernel
    simp [hempty, hnone, lastRequest]
  · rw [get_foldlM_parseExternalPortsItem_iff h]
    simp [externalPortsItems]

/-! ## What is stored -/

/-- The stored claims of an accepted channel tell which of its ports were allocated, and the
`allocations` view lists the claims of these. -/
def SourcesMatch (cfg : Config) (r : PassResult) (c : Channel) (resolved : List ResolvedPort) :
    Prop :=
  ∀ p ∈ resolved, ∃ claim, r.final.muxState.claims.get (c.claimKey p.port) = some claim ∧
    (claim.source = some (.text autoPort) ↔ FromAllocator cfg c p.port) ∧
    (claim ∈ r.final.muxState.toState.allocations.getD [] ↔ FromAllocator cfg c p.port)

theorem mem_allocations_iff {st : MuxState} {key : String} {claim : Claim}
    (h : st.claims.get key = some claim) :
    claim ∈ st.toState.allocations.getD [] ↔ claim.source = some (.text autoPort) := by
  have hmem : claim ∈ (st.claims.entries.insertionSort (·.1 ≤ ·.1)).map Prod.snd :=
    List.mem_map.mpr ⟨(key, claim), List.mem_insertionSort _ |>.mpr
      ((Dict.get_eq_some_iff _ _ _).mp h), rfl⟩
  simp only [MuxState.toState, Option.getD_some, List.mem_filter, decide_eq_true_eq]
  exact and_iff_right hmem

theorem source_recordedClaim_iff (cfg : Config) (c : Channel) (p : ResolvedPort) :
    (MuxState.recordedClaim cfg c p).source = some (.text autoPort) ↔
      (p.port.portName, autoPort) ∈
        externalPortsItems (c.annotation cfg.annotationExternalPorts) := by
  rw [← get_externalPortModes_iff]
  simp only [MuxState.recordedClaim, Claim.ofRef, MuxState.recordedMode, Option.some.injEq,
    FieldValue.text.injEq]
  split_ifs with h
  · exact iff_of_true rfl h
  · exact iff_of_false (by decide) h

section Request

variable {cfg : Config} {c : Channel} {explicitPorts : Dict String PortRequest}
  (hclaims : channelPortClaims cfg c = .ok explicitPorts)

include hclaims

theorem fromAllocator_iff (p : ServicePort) :
    FromAllocator cfg c p ↔
      lastRequest (externalPortsItems (c.annotation cfg.annotationExternalPorts)) p.portName =
        some autoPort := by
  have hparse : parseExternalPortsAnnotation cfg (c.annotation cfg.annotationExternalPorts) =
      .ok explicitPorts := parse_of_channelPortClaims hclaims
  rw [← get_parseExternalPortsAnnotation_iff hparse]
  constructor
  · rintro ⟨explicitPorts', hclaims', hauto⟩
    rwa [Except.ok.inj (hclaims.symm.trans hclaims')]
  · exact fun hauto => ⟨explicitPorts, hclaims, hauto⟩

/-- The recorded source of a port is right unless an `auto` item for it is overridden. -/
theorem source_matches_iff (p : ResolvedPort) :
    ((MuxState.recordedClaim cfg c p).source = some (.text autoPort) ↔
        FromAllocator cfg c p.port) ↔
      ¬ OverriddenAuto (externalPortsItems (c.annotation cfg.annotationExternalPorts))
        p.port.portName := by
  rw [source_recordedClaim_iff, fromAllocator_iff hclaims, OverriddenAuto]
  constructor
  · rintro hiff ⟨hauto, hlast⟩
    exact hlast (hiff.mp hauto)
  · intro hnot
    exact ⟨fun hauto => not_not.mp fun hlast => hnot ⟨hauto, hlast⟩, mem_of_lastRequest⟩

end Request

/-- In every pass the claims of an accepted channel tell which of its ports were allocated, if and
only if its annotation asks for no port twice in such a way that an `auto` is overridden. -/
theorem recorded_sources_match_iff (cfg : Config) (input : AdmittedPass) (r : PassResult)
    (hpass : muxPass cfg input.toPassInput = .ok r) (c : Channel) (resolved : List ResolvedPort)
    (haccepted : (c, Outcome.accepted resolved) ∈ r.reports) :
    SourcesMatch cfg r c resolved ↔ ∀ p ∈ c.ports,
      ¬ OverriddenAuto (externalPortsItems (c.annotation cfg.annotationExternalPorts))
        p.portName := by
  obtain ⟨s, s', hmeets, hstep⟩ := input.exists_step hpass haccepted
  obtain ⟨start, hstart, -⟩ := muxPass_eq_ok hpass
  obtain ⟨hs, -⟩ := sound_of_meets hstart hmeets
  have hc := input.mem_channels_of_mem_reports hpass haccepted
  obtain ⟨explicitPorts, hclaims, hports, -⟩ :=
    accepted_spec (input.admitted c hc) hs.wellKeyed hs.ranges hstep
  have hone : ∀ p ∈ resolved, (∃ claim,
      r.final.muxState.claims.get (c.claimKey p.port) = some claim ∧
      (claim.source = some (.text autoPort) ↔ FromAllocator cfg c p.port) ∧
      (claim ∈ r.final.muxState.toState.allocations.getD [] ↔ FromAllocator cfg c p.port)) ↔
      ¬ OverriddenAuto (externalPortsItems (c.annotation cfg.annotationExternalPorts))
        p.port.portName := by
    intro p hp
    have hget := accepted_claims hpass haccepted hp
    have hmatch := source_matches_iff hclaims p
    constructor
    · rintro ⟨claim, hclaim, hiff, -⟩
      rw [hget] at hclaim
      obtain rfl := Option.some.inj hclaim
      exact hmatch.mp hiff
    · intro hnot
      have hiff := hmatch.mpr hnot
      exact ⟨_, hget, hiff, (mem_allocations_iff hget).trans hiff⟩
  rw [← hports, List.forall_mem_map]
  exact forall_congr' fun p => forall_congr' fun hp => hone p hp

/-- The channel `web` asks for an allocated port first and for port 8080 last. -/
def overriddenPass : AdmittedPass where
  mux := sampleMux [("svc-mux.nowake.ai/port-range", "9000-9001")] [("placeholder", 101)]
  channels := [sampleChannel "web" "http" 80
      [("svc-mux.nowake.ai/external-ports", "http:auto, http:8080")],
    sampleChannel "api" "http" 81 [("svc-mux.nowake.ai/external-ports", "http:8081, http:auto")]]
  configmap := none
  order := sampleOrder
  admitted := by decide +kernel
  distinct := by decide +kernel

theorem recorded_sources_match_overriddenPass :
    ∃ r, muxPass sampleConfig overriddenPass.toPassInput = .ok r ∧
      SourcesMatch sampleConfig r (sampleChannel "api" "http" 81
        [("svc-mux.nowake.ai/external-ports", "http:8081, http:auto")])
        [⟨⟨some "http", 81, some "TCP"⟩, 9000⟩] := by
  obtain ⟨r, hpass, haccepted⟩ : ∃ r, muxPass sampleConfig overriddenPass.toPassInput = .ok r ∧
      (sampleChannel "api" "http" 81
        [("svc-mux.nowake.ai/external-ports", "http:8081, http:auto")],
        Outcome.accepted [⟨⟨some "http", 81, some "TCP"⟩, 9000⟩]) ∈ r.reports := by
    decide +kernel
  exact ⟨r, hpass, (recorded_sources_match_iff sampleConfig overriddenPass r hpass _ _ haccepted).mpr
    (by decide +kernel)⟩

/-- `web` got port 8080 as it asked, and its claim says that it was allocated. -/
theorem static_port_recorded_as_auto_overriddenPass :
    ∃ r, muxPass sampleConfig overriddenPass.toPassInput = .ok r ∧
      (sampleChannel "web" "http" 80
        [("svc-mux.nowake.ai/external-ports", "http:auto, http:8080")],
        Outcome.accepted [⟨⟨some "http", 80, some "TCP"⟩, 8080⟩]) ∈ r.reports ∧
      sampleClaim "web" 80 8080 "auto" ∈ r.final.muxState.toState.allocations.getD [] ∧
      ¬ FromAllocator sampleConfig (sampleChannel "web" "http" 80
        [("svc-mux.nowake.ai/external-ports", "http:auto, http:8080")])
        ⟨some "http", 80, some "TCP"⟩ ∧
      ¬ SourcesMatch sampleConfig r (sampleChannel "web" "http" 80
        [("svc-mux.nowake.ai/external-ports", "http:auto, http:8080")])
        [⟨⟨some "http", 80, some "TCP"⟩, 8080⟩] := by
  obtain ⟨r, hpass, haccepted, hget, hview⟩ : ∃ r,
      muxPass sampleConfig overriddenPass.toPassInput = .ok r ∧
      (sampleChannel "web" "http" 80
        [("svc-mux.nowake.ai/external-ports", "http:auto, http:8080")],
        Outcome.accepted [⟨⟨some "http", 80, some "TCP"⟩, 8080⟩]) ∈ r.reports ∧
      r.final.muxState.claims.get "TCP:default:web:http" =
        some (sampleClaim "web" 80 8080 "auto") ∧
      sampleClaim "web" 80 8080 "auto" ∈ r.final.muxState.toState.allocations.getD [] := by
    decide +kernel
  have hstatic : ¬ FromAllocator sampleConfig (sampleChannel "web" "http" 80
      [("svc-mux.nowake.ai/external-ports", "http:auto, http:8080")])
      ⟨some "http", 80, some "TCP"⟩ := by
    rintro ⟨explicitPorts, hclaims, hauto⟩
    have hparsed : channelPortClaims sampleConfig (sampleChannel "web" "http" 80
        [("svc-mux.nowake.ai/external-ports", "http:auto, http:8080")]) =
          .ok (Dict.ofList [("http", .port 8080)]) := by decide +kernel
    obtain rfl := Except.ok.inj (hclaims.symm.trans hparsed)
    revert hauto
    decide +kernel
  refine ⟨r, hpass, haccepted, hview, hstatic, fun hmatch => ?_⟩
  obtain ⟨claim, hclaim, -, hlisted⟩ := hmatch _ List.mem_cons_self
  obtain rfl := Option.some.inj (hget.symm.trans hclaim)
  exact hstatic (hlisted.mp hview)

end SvcLbMux
