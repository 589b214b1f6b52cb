import SvcLbMux.Iteration

namespace SvcLbMux

open Py

variable {cfg : Config}

/-! ## The items of a `ports` annotation -/

/-- An item that both parsers of the annotation read, or skip: behind a colon there is a number,
after an arrow if the item has one. -/
def ItemReadable (item : String) : Prop :=
  ∀ portName portSpec, cut (strip item) ":" = some (portName, portSpec) →
    ((cut (strip item) "->").isSome → (cut portSpec "->").isSome) ∧
      (int (strip (muxPortText portSpec))).isSome

theorem parsePortMapping_ok_iff (mappings : Dict String String) (item : String) :
    (∃ mappings', parsePortMapping mappings item = .ok mappings') ↔
      ∀ portName rest, cut (strip item) ":" = some (portName, rest) →
        (cut (strip item) "->").isSome → (cut rest "->").isSome := by
  unfold parsePortMapping
  by_cases hempty : strip item = ""
  · -- The empty item is skipped, and it has no colon.
    simp [hempty, show cut "" ":" = none from rfl]
  · cases hcut : cut (strip item) ":" with
    | none => simp [hempty, hcut]
    | some parts =>
      obtain ⟨portName, rest⟩ := parts
      cases harrow : cut (strip item) "->" with
      | none => simp [hempty, hcut, harrow]
      | some _ =>
        cases hrest : cut rest "->" with
        | none => simp [hempty, hcut, harrow, hrest]
        | some _ => simp [hempty, hcut, harrow, hrest]

theorem parseMuxPortItem_ok_iff (muxPortMap : Dict String Int) (item : String) :
    (∃ muxPortMap', parseMuxPortItem muxPortMap item = .ok muxPortMap') ↔
      ∀ portName portSpec, cut (strip item) ":" = some (portName, portSpec) →
        (int (strip (muxPortText portSpec))).isSome := by
  unfold parseMuxPortItem parseInt
  cases hcut : cut (strip item) ":" with
  | none => simp [hcut]
  | some parts =>
    obtain ⟨portName, portSpec⟩ := parts
    cases hint : int (strip (muxPortText portSpec)) with
    | none => simp [hcut, hint, Except.map]
    | some n => simp [hcut, hint, Except.map]

theorem foldlM_split_ok_iff {σ : Type*} {f : σ → String → Except ValueError σ} (start : σ)
    (good : String → Prop) (hf : ∀ s a, (∃ s', f s a = .ok s') ↔ good a) (hempty : good "")
    (text : String) :
    (∃ t, (if text = "" then .ok start else (split text ',').foldlM f start) = .ok t) ↔
      ∀ item ∈ split text ',', good item := by
  split_ifs with h
  · subst h
    simp [show split "" ',' = [""] from rfl, hempty]
  · exact Loop.foldlM_ok_iff good hf start

/-- Both parsers read an annotation if and only if they read each of its items. -/
theorem annotation_readable_iff (c : Channel) :
    PortsAnnotationReadable cfg c ∧ DebugReadable cfg c ↔
      ∀ item ∈ split (c.annotation cfg.annotationPorts) ',', ItemReadable item := by
  have hcolon : cut (strip "") ":" = none := rfl
  have hmappings : PortsAnnotationReadable cfg c ↔ _ :=
    foldlM_split_ok_iff Dict.empty _ parsePortMapping_ok_iff (by simp [hcolon])
      (c.annotation cfg.annotationPorts)
  have hdebug : DebugReadable cfg c ↔ _ :=
    foldlM_split_ok_iff Dict.empty _ parseMuxPortItem_ok_iff (by simp [hcolon])
      (c.annotation cfg.annotationPorts)
  rw [hmappings, hdebug, ← forall₂_and]
  exact forall₂_congr fun item _ => ⟨fun h n s hcut => ⟨h.1 n s hcut, h.2 n s hcut⟩,
    fun h => ⟨fun n s hcut => (h n s hcut).1, fun n s hcut => (h n s hcut).2⟩⟩

/-! ## When an iteration ends -/

/-- What an iteration requires of its objects: the ports of the mux have a name and a protocol, the
`ports` annotations list numbers, and no channel that is not turned away has an address behind an
unnamed port. -/
structure Digestible (cfg : Config) (input : PassInput) (memoEndpoints : MemoEndpoints) : Prop where
  muxPorts : ∀ p ∈ input.mux.ports, p.name ≠ none ∧ p.protocol ≠ none
  annotations : ∀ c ∈ input.channels, ∀ item ∈ split (c.annotation cfg.annotationPorts) ',',
    ItemReadable item
  endpoints : ∀ c s, PassMeets cfg input c s →
    ¬ TurnedAway cfg (muxPortLimit cfg input.mux).1 s c → EndpointPortsNamed memoEndpoints c

theorem digestible_of_readable {input : PassInput} {memoEndpoints : MemoEndpoints}
    (hreadable : Readable cfg input) (hdebug : ∀ c ∈ input.channels, DebugReadable cfg c)
    (hnamed : ∀ c ∈ input.channels, EndpointPortsNamed memoEndpoints c) :
    Digestible cfg input memoEndpoints where
  muxPorts := hreadable.1
  annotations := fun c hc => (annotation_readable_iff c).mp ⟨hreadable.2 c hc, hdebug c hc⟩
  endpoints := fun c _ hmeets _ => hnamed c (mem_channels_of_meets hmeets)

theorem accepted_iff_not_turnedAway {input : AdmittedPass} {r : PassResult}
    (hpass : muxPass cfg input.toPassInput = .ok r) (P : Channel → Prop) :
    (∀ c resolved, (c, .accepted resolved) ∈ r.reports → P c) ↔
      ∀ c s, PassMeets cfg input.toPassInput c s →
        ¬ TurnedAway cfg (muxPortLimit cfg input.mux).1 s c → P c := by
  constructor
  · intro h c s hmeets hstays
    obtain ⟨start, hstart, hrun, -⟩ := muxPass_eq_ok hpass
    obtain ⟨e, he⟩ := started_of_passStart hstart
    obtain ⟨s', outcome, hstep, hreport⟩ :=
      Loop.exists_step_of_turn hrun (turn_of_meets hstart hmeets)
    rw [he.maxPorts] at hstep
    obtain ⟨haway, -⟩ | ⟨resolved, -, rfl, -⟩ := channelStep_cases hstep
    · exact absurd haway hstays
    · exact h c resolved hreport
  · intro h c resolved hmem
    obtain ⟨s, s', hmeets, hstep⟩ := input.exists_step hpass hmem
    exact h c s hmeets (acceptedTurn_of_step hstep).stays

theorem daemonIteration_eq_ok_iff {input : PassInput} {memoEndpoints : MemoEndpoints}
    {sources : DebugSources} {st : DebugState} {r : IterationResult} :
    (daemonIteration cfg input memoEndpoints sources st).1 = .ok r ↔
      (∀ c ∈ input.channels, DebugReadable cfg c) ∧
        reconcileChannels cfg input memoEndpoints = .ok r := by
  have hdebug : (updateMuxState cfg memoEndpoints sources (input.mux.namespace_, input.mux.name)
      input.mux input.channels st).1 = .ok () ↔ ∀ c ∈ input.channels, DebugReadable cfg c :=
    updateMuxState_ok_iff
  rw [← hdebug, daemonIteration]
  split
  · rename_i e st' h
    simp [h]
  · rename_i st' h
    simp [h]

theorem muxPass_of_daemonIteration {input : PassInput} {memoEndpoints : MemoEndpoints}
    {sources : DebugSources} {st : DebugState} {r : IterationResult}
    (h : (daemonIteration cfg input memoEndpoints sources st).1 = .ok r) :
    muxPass cfg input = .ok r.toPassResult := by
  obtain ⟨-, hok⟩ := daemonIteration_eq_ok_iff.mp h
  obtain ⟨-, -, -, -, -, -, hpass⟩ := reconcileChannels_eq_ok hok
  exact hpass

theorem daemonIteration_ok_iff {memoEndpoints : MemoEndpoints} (input : AdmittedPass)
    (sources : DebugSources) (st : DebugState) :
    (∃ r, (daemonIteration cfg input.toPassInput memoEndpoints sources st).1 = .ok r) ↔
      Digestible cfg input.toPassInput memoEndpoints := by
  constructor
  · rintro ⟨r, hr⟩
    obtain ⟨hreads, hok⟩ := daemonIteration_eq_ok_iff.mp hr
    obtain ⟨r', hpass, hnamed⟩ := reconcileChannels_ok_iff.mp ⟨r, hok⟩
    obtain ⟨hmux, hannotations⟩ := input.muxPass_ok_iff.mp ⟨r', hpass⟩
    exact ⟨hmux, fun c hc => (annotation_readable_iff c).mp ⟨hannotations c hc, hreads c hc⟩,
      (accepted_iff_not_turnedAway hpass _).mp hnamed⟩
  · intro h
    have hreads := fun c hc => (annotation_readable_iff c).mpr (h.annotations c hc)
    obtain ⟨r', hpass⟩ := input.muxPass_ok_iff.mpr ⟨h.muxPorts, fun c hc => (hreads c hc).1⟩
    obtain ⟨r, hok⟩ := reconcileChannels_ok_iff.mpr
      ⟨r', hpass, (accepted_iff_not_turnedAway hpass _).mpr h.endpoints⟩
    exact ⟨r, daemonIteration_eq_ok_iff.mpr ⟨fun c hc => (hreads c hc).2, hok⟩⟩

/-- An iteration runs to its end, and every channel is processed in it. -/
def IterationEnds (cfg : Config) (input : PassInput) (memoEndpoints : MemoEndpoints)
    (sources : DebugSources) (st : DebugState) : Prop :=
  ∃ r, (daemonIteration cfg input memoEndpoints sources st).1 = .ok r ∧
    ∀ c ∈ input.channels, ∃ outcome, (c, outcome) ∈ r.reports

/-- An iteration ends if and only if its objects are digestible. -/
theorem iteration_ends_iff (cfg : Config) (input : AdmittedPass) (memoEndpoints : MemoEndpoints)
    (sources : DebugSources) (st : DebugState) :
    IterationEnds cfg input.toPassInput memoEndpoints sources st ↔
      Digestible cfg input.toPassInput memoEndpoints := by
  rw [← daemonIteration_ok_iff input sources st]
  constructor
  · rintro ⟨r, hr, -⟩
    exact ⟨r, hr⟩
  · rintro ⟨r, hr⟩
    refine ⟨r, hr, fun c hc => ?_⟩
    obtain ⟨-, outcome, -, hreport⟩ := input.exists_meets (muxPass_of_daemonIteration hr) hc
    exact ⟨outcome, hreport⟩

theorem admitted_sampleChannel {name portName : String} {port : Int}
    (h : (sampleChannel name portName port []).Admitted) (annotations : List (String × String)) :
    (sampleChannel name portName port annotations).Admitted :=
  ⟨h.namespace_, h.name, h.ports, h.names⟩

/-- The channels `api`, with this `ports` annotation, and `web`, behind a mux whose only port has
this name. -/
def unevenPass (muxPortName : Option String) (portsText : String) : AdmittedPass where
  mux := { sampleMux [] [] with ports := [⟨muxPortName, 101, some "TCP"⟩] }
  channels := [sampleChannel "api" "http" 81 [("svc-mux.nowake.ai/ports", portsText)],
    sampleChannel "web" "http" 80 []]
  configmap := some (sampleConfigmap [])
  order := sampleOrder
  admitted := by
    simp only [List.mem_cons, List.not_mem_nil, or_false]
    rintro c (rfl | rfl)
    · exact admitted_sampleChannel (by decide +kernel) _
    · exact admitted_sampleChannel (by decide +kernel) _
  distinct := by
    change [("default", "api"), ("default", "web")].Nodup
    decide

/-- The cached Endpoints of `api`, whose port has this name. -/
def apiEndpoints (portName : Option String) : MemoEndpoints :=
  Dict.ofList [(("default", "api"), ⟨Dict.empty, Dict.empty,
    some [⟨["10.0.0.1"], [], [⟨portName, 8080, "TCP"⟩]⟩]⟩)]

def UnevenIterationEnds (muxPortName : Option String) (portsText : String)
    (endpointPortName : Option String) : Prop :=
  IterationEnds sampleConfig (unevenPass muxPortName portsText).toPassInput
    (apiEndpoints endpointPortName) sampleSources DebugState.empty

theorem not_iterationEnds {input : PassInput} {memoEndpoints : MemoEndpoints} {sources : DebugSources}
    {st : DebugState}
    (h : (daemonIteration cfg input memoEndpoints sources st).1.isOk = false) :
    ¬ IterationEnds cfg input memoEndpoints sources st := by
  rintro ⟨r, hr, -⟩
  rw [hr] at h
  cases h

/-- An unnamed mux port, an item with its arrow before its colon, an item without a number and an
unnamed Endpoints port each end the iteration, though the state ConfigMap is readable. -/
theorem iteration_stopped_by_malformed_objects :
    ((muxStore sampleConfig (sampleMux [] [])).load (some (sampleConfigmap []))).isOk = true ∧
      ¬ UnevenIterationEnds none "http:81->81" (some "http") ∧
      ¬ UnevenIterationEnds (some "placeholder") "http->81:81" (some "http") ∧
      ¬ UnevenIterationEnds (some "placeholder") "http:81->x" (some "http") ∧
      ¬ UnevenIterationEnds (some "placeholder") "http:81->81" none :=
  ⟨by decide +kernel, not_iterationEnds (by decide +kernel), not_iterationEnds (by decide +kernel),
    not_iterationEnds (by decide +kernel), not_iterationEnds (by decide +kernel)⟩

end SvcLbMux
