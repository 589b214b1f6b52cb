import SvcLbMux.CorruptState

namespace SvcLbMux

open Py

/-! ## Reading a document -/

section Definitions

variable (json : JsonModule)

/-- A value in a field of a claim; `int` reads neither `NaN` nor arrays nor objects. -/
def readValue : Json → FieldValue
  | .null => .null
  | .bool b => .number (if b then 1 else 0)
  | .int n => .number n
  | .float x => .number x
  | .str s => .text s
  | value => .other (json.str value)

def claimFields : List String :=
  ["namespace", "service", "portName", "protocol", "channelPort", "muxPort", "port", "source"]

def readClaim (claim : Dict String Json) : Claim where
  namespace_ := json.str ((claim.get "namespace").getD .null)
  service := json.str ((claim.get "service").getD .null)
  portName := json.str ((claim.get "portName").getD .null)
  protocol := (claim.get "protocol").map json.str
  channelPort := (claim.get "channelPort").map (readValue json)
  muxPort := (claim.get "muxPort").map (readValue json)
  port := (claim.get "port").map (readValue json)
  source := (claim.get "source").map (readValue json)
  extra := (claim.entries.filter fun e => e.1 ∉ claimFields).map fun e => (e.1, readValue json e.2)

def readClaims : Json → List Claim
  | .arr items => items.map fun item => readClaim json item.members
  | _ => []

/-- The value under `portClaims`; `null` is taken for absent. -/
def readPortClaims : Option Json → Option (List Claim)
  | none => none
  | some .null => none
  | some claims => some (readClaims json claims)

/-- The mux that a document names, unless that is taken for absent. -/
def readMux (mux : Json) : Option (Option String × Option String) :=
  if mux.truthy then
    some ((mux.members.get "namespace").map json.str, (mux.members.get "name").map json.str)
  else none

/-- A document; `none` is what is taken for an empty one. -/
def readState (state : Json) : Option StateDoc :=
  if state.truthy then
    some { mux := (state.members.get "mux").bind (readMux json)
           portClaims := readPortClaims json (state.members.get "portClaims")
           allocations := (state.members.get "allocations").map (readClaims json) }
  else none

def readConfigMap (configmap : StateConfigMap) : ConfigMap where
  muxAnnotation := configmap.muxAnnotation
  data :=
    match configmap.text with
    | none => .missing
    | some raw =>
      if raw = "" then .missing
      else match json.loads raw with
        | .error _ => .notJson
        | .ok state => .document (readState json state)

def JsonMuxState.read (st : JsonMuxState) : MuxState where
  muxKey := st.muxKey
  ranges := st.ranges
  activeKeys := st.activeKeys
  reservedPorts := st.reservedPorts
  reservedPortOwners := st.reservedPortOwners
  claims := st.claims.mapValues (readClaim json)
  changed := st.changed

end Definitions

structure TextsAsWritten (json : JsonModule) : Prop where
  null : json.str .null = "None"
  text : ∀ s, json.str (.str s) = s

example : TextsAsWritten ⟨sampleJson.loads, fun | .str s => s | _ => "None"⟩ :=
  ⟨rfl, fun _ => rfl⟩

def MuxNamesTyped (state : Json) : Prop :=
  ∀ members names, state = .obj members → Json.lookup members "mux" = some (.obj names) →
    ∀ key value, Json.lookup names key = some value → ∃ s, value = .str s

/-- What is no JSON raises a `JSONDecodeError`, and what is names its mux by texts. -/
structure ConfigMapTyped (json : JsonModule) (configmap : StateConfigMap) : Prop where
  loads : ∀ raw message, configmap.text = some raw → json.loads raw ≠ .error (.valueError message)
  names : ∀ raw state, configmap.text = some raw → json.loads raw = .ok state → MuxNamesTyped state

/-! ## Claims -/

section Claims

variable {json : JsonModule} {claim claim' : Dict String Json}

theorem toInt_readValue (value : Json) :
    (readValue json value).toInt = match value.toInt with
      | .ok n => some n
      | .error _ => none := by
  cases value with
  | int n => simp [readValue, FieldValue.toInt, Json.toInt]
  | bool b => cases b <;> simp [readValue, FieldValue.toInt, Json.toInt]
  | str s =>
    simp only [readValue, FieldValue.toInt, Json.toInt]
    cases Py.int s <;> rfl
  | _ => rfl

theorem claimMuxPort_readClaim {port : Option Int} (h : jsonClaimMuxPort claim = .ok port) :
    claimMuxPort (readClaim json claim) = port := by
  have hfields : (readClaim json claim).muxPort.or (readClaim json claim).port =
      ((claim.get "muxPort").or (claim.get "port")).map (readValue json) := Option.map_or.symm
  rw [claimMuxPort, hfields]
  unfold jsonClaimMuxPort at h
  split at h
  · rename_i hvalue
    rw [hvalue]
    exact Except.ok.inj h
  · rename_i hvalue
    rw [hvalue]
    exact Except.ok.inj h
  · rename_i value _ hvalue
    rw [hvalue, Option.map_some, Option.getD_some, toInt_readValue]
    cases hint : value.toInt with
    | ok n =>
      rw [hint] at h
      exact Except.ok.inj h
    | error e =>
      rw [hint] at h
      dsimp only at h
      split_ifs at h
      exact Except.ok.inj h

theorem extra_set {key : String} (hkey : key ∈ claimFields) (value : Json) :
    (readClaim json (claim.set key value)).extra = (readClaim json claim).extra := by
  have hdropped : decide (key ∉ claimFields) = false := by simpa using hkey
  exact congrArg (List.map fun e => (e.1, readValue json e.2))
    (Dict.filter_entries_set (p := fun key => decide (key ∉ claimFields)) claim hdropped value)

theorem readClaim_setPorts (port : Int) :
    readClaim json ((claim.set "muxPort" (.int port)).set "port" (.int port)) =
      { readClaim json claim with muxPort := some (.number port), port := some (.number port) } := by
  have hextra : (readClaim json ((claim.set "muxPort" (.int port)).set "port" (.int port))).extra =
      (readClaim json claim).extra := by
    rw [extra_set (by decide), extra_set (by decide)]
  rw [Claim.mk.injEq]
  refine ⟨?_, ?_, ?_, ?_, ?_, ?_, ?_, ?_, hextra⟩ <;> simp [readClaim, readValue]

theorem readClaim_setDefault (mode : String) :
    readClaim json (claim.setDefault "source" (.str mode)) =
      { readClaim json claim with
        source := (readClaim json claim).source.or (some (.text mode)) } := by
  unfold Dict.setDefault
  split_ifs with hkey
  · obtain ⟨value, hvalue⟩ := (Dict.mem_keys_iff _ _).mp hkey
    simp [readClaim, hvalue]
  · rw [Claim.mk.injEq]
    have hnone := (Dict.get_eq_none_iff _ _).mpr hkey
    refine ⟨?_, ?_, ?_, ?_, ?_, ?_, ?_, ?_, extra_set (by decide) _⟩ <;>
      simp [readClaim, readValue, hnone]

theorem normalizeClaim_readClaim (h : jsonNormalizeClaim claim = .ok claim') :
    normalizeClaim (readClaim json claim) = readClaim json claim' := by
  unfold jsonNormalizeClaim at h
  cases hport : jsonClaimMuxPort claim with
  | error e => simp [hport, Except.map] at h
  | ok port =>
    simp only [hport, Except.map, Except.ok.injEq] at h
    rw [← h, readClaim_setDefault, normalizeClaim, claimMuxPort_readClaim hport]
    cases port with
    | none => rfl
    | some port =>
      dsimp only
      rw [readClaim_setPorts]

theorem key_readClaim (htexts : TextsAsWritten json) {item : Json} {key : String}
    (h : jsonClaimKey json item = .ok key) : (readClaim json item.members).ref.key = key := by
  obtain ⟨members, rfl, -⟩ := (jsonClaimKey_ok_iff json item).mp ⟨key, h⟩
  simp only [jsonClaimKey, Json.item, Json.get_obj] at h
  cases hnamespace : Json.lookup members "namespace" with
  | none => simp [hnamespace] at h
  | some namespace_ =>
    cases hservice : Json.lookup members "service" with
    | none => simp [hnamespace, hservice] at h
    | some service =>
      cases hportName : Json.lookup members "portName" with
      | none => simp [hnamespace, hservice, hportName] at h
      | some portName =>
        simp only [hnamespace, hservice, hportName, Except.ok.injEq] at h
        have hprotocol : ((Json.lookup members "protocol").map json.str).getD "TCP" =
            json.str ((Json.lookup members "protocol").getD (.str "TCP")) := by
          cases Json.lookup members "protocol" with
          | none => exact (htexts.text "TCP").symm
          | some protocol => rfl
        rw [← h, ← hprotocol]
        simp only [readClaim, Claim.ref, Claim.protocolOrTcp, PortAllocationRef.key, Json.get_members,
          hnamespace, hservice, hportName, Option.getD_some]

theorem mapValues_foldlM_addJsonClaim (htexts : TextsAsWritten json) {items : List Json}
    {claims loaded : Dict String (Dict String Json)}
    (h : items.foldlM (addJsonClaim json) claims = .ok loaded) :
    loaded.mapValues (readClaim json) = (claims.mapValues (readClaim json)).updateList
      ((items.map fun item => readClaim json item.members).map fun claim =>
        (claim.ref.key, normalizeClaim claim)) := by
  induction items generalizing claims with
  | nil =>
    obtain rfl := Except.ok.inj h
    rfl
  | cons item items ih =>
    obtain ⟨claims', hadd, hrest⟩ := Loop.foldlM_cons_eq_ok.mp h
    rw [ih hrest]
    unfold addJsonClaim at hadd
    cases hkey : jsonClaimKey json item with
    | error e => simp [hkey] at hadd
    | ok key =>
      cases hnormalized : jsonNormalizeClaim item.members with
      | error e => simp [hkey, hnormalized, Except.map] at hadd
      | ok claim =>
        simp only [hkey, hnormalized, Except.map, Except.ok.injEq] at hadd
        rw [← hadd, Dict.mapValues_set, ← normalizeClaim_readClaim hnormalized,
          ← key_readClaim htexts hkey]
        rfl

theorem stateClaims_readState (members : List (String × Json)) :
    stateClaims (readState json (.obj members)) = readClaims json (listedClaims members) := by
  cases members with
  | nil => rfl
  | cons member members =>
    have hallocations : ((Json.lookup (member :: members) "allocations").map (readClaims json)).getD [] =
        readClaims json ((Json.lookup (member :: members) "allocations").getD (.arr [])) := by
      cases Json.lookup (member :: members) "allocations" <;> rfl
    simp only [readState, Json.truthy_obj, List.isEmpty_cons, Bool.not_false, if_true, stateClaims,
      Json.get_members, listedClaims]
    cases Json.lookup (member :: members) "portClaims" with
    | none => exact hallocations
    | some portClaims =>
      cases portClaims with
      | null => exact hallocations
      | _ => rfl

theorem claimsByKey_readState (htexts : TextsAsWritten json) {members : List (String × Json)}
    {loaded : Dict String (Dict String Json)}
    (h : jsonClaimsByKey json (.obj members) = .ok loaded) :
    claimsByKey (stateClaims (readState json (.obj members))) =
      loaded.mapValues (readClaim json) := by
  have hreadable := (jsonClaimsByKey_ok_iff json members).mp ⟨loaded, h⟩
  rw [stateClaims_readState]
  rw [jsonClaimsByKey, jsonStateClaims_obj] at h
  dsimp only at h
  obtain hlisted | hlisted | ⟨items, hlisted, -⟩ := hreadable
  · rw [hlisted] at h ⊢
    obtain rfl := Except.ok.inj h
    rfl
  · rw [hlisted] at h ⊢
    obtain rfl := Except.ok.inj h
    rfl
  · rw [hlisted] at h ⊢
    exact (mapValues_foldlM_addJsonClaim htexts h).symm

end Claims

/-! ## The state of a mux -/

section States

variable {json : JsonModule} {state : Json}

theorem readState_of_not_truthy (h : state.truthy = false) : readState json state = none := by
  rw [readState, h]
  rfl

theorem needsClaimWrite_readState (members : List (String × Json)) :
    stateNeedsClaimWrite (readState json (.obj members)) =
      ((Json.obj members).truthy && Json.isNone (Json.lookup members "portClaims")) := by
  cases members with
  | nil => rfl
  | cons member members =>
    simp only [readState, Json.truthy_obj, List.isEmpty_cons, Bool.not_false, if_true,
      stateNeedsClaimWrite, Option.any_some, Json.get_members, Bool.true_and]
    cases Json.lookup (member :: members) "portClaims" with
    | none => rfl
    | some portClaims => cases portClaims <;> rfl

theorem init_readState (htexts : TextsAsWritten json) {muxKey : String × String}
    {ranges : List (Int × Int)} {channels : List Channel} {reservedPorts : Finset PortKey}
    {owners : Dict PortKey String} {st : JsonMuxState}
    (h : JsonMuxState.init json muxKey ranges state channels reservedPorts owners = .ok st) :
    MuxState.init muxKey ranges (readState json state) channels reservedPorts owners =
      st.read json := by
  obtain ⟨members, hmembers, hstate, htruthy⟩ : ∃ members, state.orEmpty = .obj members ∧
      readState json state = readState json (.obj members) ∧
        state.truthy = (Json.obj members).truthy := by
    by_cases htruthy : state.truthy = true
    · obtain ⟨members, rfl, -⟩ :=
        (init_ok_iff json muxKey ranges state channels reservedPorts owners).mp ⟨st, h⟩ htruthy
      exact ⟨members, by rw [Json.orEmpty, if_pos htruthy], rfl, rfl⟩
    · have hfalsy := Bool.eq_false_of_not_eq_true htruthy
      exact ⟨[], by rw [Json.orEmpty, if_neg htruthy], readState_of_not_truthy hfalsy, hfalsy⟩
  unfold JsonMuxState.init at h
  rw [hmembers] at h
  cases hloaded : jsonClaimsByKey json (.obj members) with
  | error e => simp [hloaded] at h
  | ok loaded =>
    simp only [hloaded, Json.get_obj, Except.map, Except.ok.injEq] at h
    rw [← h, MuxState.init, hstate, claimsByKey_readState htexts hloaded,
      needsClaimWrite_readState, JsonMuxState.read, htruthy, Dict.mapValues_filterKeys,
      Dict.keys_mapValues]

theorem init_map_readState (htexts : TextsAsWritten json) {muxKey : String × String}
    {ranges : List (Int × Int)} {channels : List Channel} {reservedPorts : Finset PortKey}
    {owners : Dict PortKey String} {st : JsonMuxState} {α : Type} {rest rest' : α}
    (h : (JsonMuxState.init json muxKey ranges state channels reservedPorts owners).map
      (fun muxState => (muxState, rest)) = .ok (st, rest')) :
    (MuxState.init muxKey ranges (readState json state) channels reservedPorts owners, rest) =
      (st.read json, rest') := by
  cases hinit : JsonMuxState.init json muxKey ranges state channels reservedPorts owners with
  | error e => simp [hinit, Except.map] at h
  | ok st' =>
    simp only [hinit, Except.map, Except.ok.injEq, Prod.mk.injEq] at h
    obtain ⟨rfl, rfl⟩ := h
    rw [init_readState htexts hinit]

end States

/-! ## The load -/

section Load

open ConfigMapAllocationStore

variable {json : JsonModule} {configmap : StateConfigMap} {state : Json} {e : Exception}
  {message : String} (store : ConfigMapAllocationStore)

theorem isText_iff_read (htexts : TextsAsWritten json) {value : Option Json}
    (hvalue : ∀ v, value = some v → ∃ s, v = .str s) (text : String) :
    value.any (Json.isText text) = true ↔ value.map json.str = some text := by
  cases value with
  | none => simp
  | some v =>
    obtain ⟨s, rfl⟩ := hvalue v rfl
    simp [Json.isText, htexts.text]

theorem str_getD_null (htexts : TextsAsWritten json) (value : Option Json) :
    json.str (value.getD .null) = (value.map json.str).getD "None" := by
  cases value with
  | none => exact htexts.null
  | some v => rfl

theorem validateJsonMux_read (htexts : TextsAsWritten json) {names : List (String × Json)}
    (hnames : ∀ key value, Json.lookup names key = some value → ∃ s, value = .str s)
    (portClaims allocations : Option (List Claim)) :
    store.validateJsonMux json (.obj names) =
      (store.validateStateOwner (some ⟨some ((Json.lookup names "namespace").map json.str,
        (Json.lookup names "name").map json.str), portClaims, allocations⟩)).mapError
          fun e => .valueError e.message := by
  have hnamespace := isText_iff_read htexts (hnames "namespace") store.muxKey.1
  have hname := isText_iff_read htexts (hnames "name") store.muxKey.2
  simp only [validateJsonMux, Json.get_obj, validateStateOwner, Option.bind_some,
    str_getD_null htexts]
  by_cases hown : (Json.lookup names "namespace").map json.str = some store.muxKey.1 ∧
      (Json.lookup names "name").map json.str = some store.muxKey.2
  · rw [if_pos (by rw [Bool.and_eq_true]; exact ⟨hnamespace.mpr hown.1, hname.mpr hown.2⟩),
      if_neg (by rw [hown.1, hown.2]; simp)]
    rfl
  · have hforeign : ((Json.lookup names "namespace").map json.str,
        (Json.lookup names "name").map json.str) ≠ (some store.muxKey.1, some store.muxKey.2) :=
      fun h => hown (Prod.mk.inj h)
    rw [if_neg (by rw [Bool.and_eq_true, hnamespace, hname]; exact hown), if_pos hforeign]
    rfl

/-- The check of the owner agrees, unless it raises on what is no object. -/
theorem validateJsonOwner_read (htexts : TextsAsWritten json)
    (hnames : MuxNamesTyped state) :
    store.validateJsonOwner json state = (store.validateStateOwner (readState json state)).mapError
        (fun e => .valueError e.message) ∨
      store.validateJsonOwner json state = .error (.attributeError "get") := by
  by_cases htruthy : state.truthy = true
  · cases state with
    | obj members =>
      have hread : readState json (.obj members) =
          some ⟨(Json.lookup members "mux").bind (readMux json),
            readPortClaims json (Json.lookup members "portClaims"),
            (Json.lookup members "allocations").map (readClaims json)⟩ := if_pos htruthy
      rw [hread]
      cases hmux : Json.lookup members "mux" with
      | none =>
        refine Or.inl ?_
        simp [validateJsonOwner, htruthy, hmux, validateStateOwner, Except.mapError]
      | some mux =>
        have hcheck : store.validateJsonOwner json (.obj members) =
            if !mux.truthy then .ok () else store.validateJsonMux json mux := by
          rw [validateJsonOwner, htruthy, Json.get_obj, hmux]
          rfl
        rw [hcheck, Option.bind_some]
        by_cases hmuxTruthy : mux.truthy = true
        · cases mux with
          | obj names =>
            refine Or.inl ?_
            rw [readMux, hmuxTruthy]
            exact validateJsonMux_read store htexts (hnames members names rfl hmux) _ _
          | _ =>
            refine Or.inr ?_
            rw [hmuxTruthy]
            rfl
        · refine Or.inl ?_
          rw [readMux, Bool.eq_false_of_not_eq_true hmuxTruthy]
          rfl
    | _ =>
      refine Or.inr ?_
      rw [validateJsonOwner, htruthy]
      rfl
  · have hfalsy := Bool.eq_false_of_not_eq_true htruthy
    refine Or.inl ?_
    rw [validateJsonOwner, hfalsy, readState_of_not_truthy hfalsy]
    rfl

theorem decodeText_read (htyped : ConfigMapTyped json configmap) :
    (∃ state, decodeText json configmap.text = .ok state ∧ MuxNamesTyped state ∧
      decodeState (readConfigMap json configmap).data = .ok (readState json state)) ∨
    ∃ e, decodeText json configmap.text = .error e ∧ ∀ message, e.asValueError = some message →
      decodeState (readConfigMap json configmap).data = .error ⟨message⟩ := by
  have hempty : MuxNamesTyped (.obj []) := by
    intro members names h hmux
    rw [← Json.obj.inj h] at hmux
    cases hmux
  unfold decodeText readConfigMap
  cases htext : configmap.text with
  | none => exact Or.inl ⟨_, rfl, hempty, rfl⟩
  | some raw =>
    by_cases hraw : raw = ""
    · simp only [if_pos hraw]
      exact Or.inl ⟨_, rfl, hempty, rfl⟩
    · simp only [if_neg hraw]
      cases hloads : json.loads raw with
      | ok state => exact Or.inl ⟨state, rfl, htyped.names raw state htext hloads, rfl⟩
      | error e =>
        cases e with
        | valueError message => exact absurd hloads (htyped.loads raw message htext)
        | jsonDecodeError message =>
          refine Or.inr ⟨_, rfl, fun message' h => ?_⟩
          rw [← Option.some.inj h]
          rfl
        | _ => exact Or.inr ⟨_, rfl, fun message' h => by cases h⟩

/-- What the store loads is what the text is read as, and what it rejects it rejects. -/
theorem load_readConfigMap (htexts : TextsAsWritten json) (htyped : ConfigMapTyped json configmap) :
    (∀ state, store.loadText json (some configmap) = .ok state →
      store.load (some (readConfigMap json configmap)) = .ok (readState json state)) ∧
    ∀ e message, store.loadText json (some configmap) = .error e → e.asValueError = some message →
      store.load (some (readConfigMap json configmap)) = .error ⟨message⟩ := by
  have howner : store.validateConfigmapOwner (readConfigMap json configmap) =
      store.validateConfigmapOwner ⟨configmap.muxAnnotation, .missing⟩ := rfl
  unfold loadText load
  dsimp only
  rw [howner]
  cases store.validateConfigmapOwner ⟨configmap.muxAnnotation, .missing⟩ with
  | error e =>
    refine ⟨by simp, fun e' message h he => ?_⟩
    rw [← Except.error.inj h] at he
    rw [← Option.some.inj he]
  | ok _ =>
    dsimp only
    obtain ⟨state, hdecode, hnames, hread⟩ | ⟨e, hdecode, hread⟩ := decodeText_read htyped
    · rw [hdecode, hread]
      dsimp only
      obtain hcheck | hcheck := validateJsonOwner_read store htexts hnames
      · rw [hcheck]
        cases store.validateStateOwner (readState json state) with
        | error e =>
          refine ⟨by simp [Except.mapError], fun e' message h he => ?_⟩
          rw [← Except.error.inj h] at he
          rw [← Option.some.inj he]
        | ok _ =>
          refine ⟨fun state' h => ?_, by simp [Except.mapError]⟩
          rw [Except.ok.inj h]
      · rw [hcheck]
        refine ⟨by simp, fun e' message h he => ?_⟩
        rw [← Except.error.inj h] at he
        cases he
    · rw [hdecode]
      refine ⟨by simp, fun e' message h he => ?_⟩
      rw [← Except.error.inj h] at he
      rw [hread message he]

end Load

/-- Where `build_mux_state` returns on the text, it returns on the document that the text is read as,
with the claims, the store and the events that correspond. -/
theorem buildMuxState_read (cfg : Config) {json : JsonModule} (htexts : TextsAsWritten json)
    {mux : MuxService} {channels : List Channel} {owners : Dict PortKey String}
    {configmap : Option StateConfigMap} (htyped : ∀ cm ∈ configmap, ConfigMapTyped json cm)
    {st : JsonMuxState} {store : Option ConfigMapAllocationStore} {events : List Event}
    (h : buildJsonMuxState cfg json mux channels owners configmap = .ok (st, store, events)) :
    buildMuxState cfg mux channels owners (configmap.map (readConfigMap json)) =
      .ok (st.read json, store, events) := by
  have hload : (∀ state, (muxStore cfg mux).loadText json configmap = .ok state →
      (muxStore cfg mux).load (configmap.map (readConfigMap json)) = .ok (readState json state)) ∧
    ∀ e message, (muxStore cfg mux).loadText json configmap = .error e →
      e.asValueError = some message →
        (muxStore cfg mux).load (configmap.map (readConfigMap json)) = .error ⟨message⟩ := by
    cases configmap with
    | none =>
      refine ⟨fun state h => ?_, by simp [ConfigMapAllocationStore.loadText]⟩
      rw [← Except.ok.inj h]
      rfl
    | some cm => exact load_readConfigMap (muxStore cfg mux) htexts (htyped cm rfl)
  unfold buildJsonMuxState at h
  unfold buildMuxState
  dsimp only at h ⊢
  cases hreserved : collectStaticPortClaims cfg channels with
  | error e => simp [hreserved] at h
  | ok reservedPorts =>
    simp only [hreserved] at h
    cases hloaded : (muxStore cfg mux).loadText json configmap with
    | error e =>
      cases he : e.asValueError with
      | none => simp [hloaded, he] at h
      | some message =>
        simp only [hloaded, he] at h
        rw [hload.2 e message hloaded he]
        exact congrArg Except.ok (init_map_readState htexts h)
    | ok state =>
      simp only [hloaded] at h
      rw [hload.1 state hloaded]
      exact congrArg Except.ok (init_map_readState htexts h)

end SvcLbMux
