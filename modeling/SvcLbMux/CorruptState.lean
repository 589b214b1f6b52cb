import SvcLbMux.Library.Json
import SvcLbMux.Pass

namespace SvcLbMux

open Py

/-- A state ConfigMap: the annotation that names its mux, and the text under `allocations.json`. -/
structure StateConfigMap where
  muxAnnotation : Option String
  text : Option String

variable (cfg : Config) (json : JsonModule)

namespace ConfigMapAllocationStore

variable (store : ConfigMapAllocationStore)

/-- `_validate_state_owner` on the value under `mux`, unless that is taken for absent. -/
def validateJsonMux (mux : Json) : Except Exception Unit :=
  match mux.get "namespace" with
  | .error e => .error e
  | .ok namespace_ =>
    match mux.get "name" with
    | .error e => .error e
    | .ok name =>
      if namespace_.any (·.isText store.muxKey.1) && name.any (·.isText store.muxKey.2) then .ok ()
      else .error (.valueError ("Mux state ConfigMap " ++ store.namespace_ ++ "/" ++ store.name ++
        " contains state for mux " ++ json.str (namespace_.getD .null) ++ "/" ++
        json.str (name.getD .null) ++ "; expected " ++ store.muxRef ++
        ". Use one state ConfigMap per mux."))

/-- `_validate_state_owner`. -/
def validateJsonOwner (state : Json) : Except Exception Unit :=
  if !state.truthy then .ok ()
  else match state.get "mux" with
    | .error e => .error e
    | .ok none => .ok ()
    | .ok (some mux) => if !mux.truthy then .ok () else store.validateJsonMux json mux

/-- `decode_state`. -/
def decodeText : Option String → Except Exception Json
  | none => .ok (.obj [])
  | some raw =>
    if raw = "" then .ok (.obj [])
    else match json.loads raw with
      | .error (.jsonDecodeError _) => .error (.valueError "Invalid mux state ConfigMap JSON")
      | .error e => .error e
      | .ok state => .ok state

/-- `load()`. -/
def loadText (configmap : Option StateConfigMap) : Except Exception Json :=
  match configmap with
  | none => .ok (.obj [])
  | some configmap =>
    match store.validateConfigmapOwner ⟨configmap.muxAnnotation, .missing⟩ with
    | .error e => .error (.valueError e.message)
    | .ok () =>
      match decodeText json configmap.text with
      | .error e => .error e
      | .ok state =>
        match store.validateJsonOwner json state with
        | .error e => .error e
        | .ok () => .ok state

end ConfigMapAllocationStore

/-! ## Claims -/

/-- `_state_claims`. -/
def jsonStateClaims (state : Json) : Except Exception Json :=
  match state.get "portClaims" with
  | .error e => .error e
  | .ok portClaims =>
    if Json.isNone portClaims then
      (state.get "allocations").map fun allocations => allocations.getD (.arr [])
    else .ok (portClaims.getD .null)

/-- `_claim_mux_port`; an `OverflowError` is not caught. -/
def jsonClaimMuxPort (claim : Dict String Json) : Except Exception (Option Int) :=
  match (claim.get "muxPort").or (claim.get "port") with
  | none => .ok none
  | some .null => .ok none
  | some value =>
    match value.toInt with
    | .ok port => .ok (some port)
    | .error e => if e.isTypeOrValueError then .ok none else .error e

/-- The key of a claim: `PortAllocationRef(...).key`. -/
def jsonClaimKey (claim : Json) : Except Exception String :=
  match claim.item "namespace" with
  | .error e => .error e
  | .ok namespace_ =>
    match claim.item "service" with
    | .error e => .error e
    | .ok service =>
      match claim.item "portName" with
      | .error e => .error e
      | .ok portName =>
        match claim.get "protocol" with
        | .error e => .error e
        | .ok protocol => .ok (json.str (protocol.getD (.str "TCP")) ++ ":" ++
            json.str namespace_ ++ ":" ++ json.str service ++ ":" ++ json.str portName)

/-- A loaded claim: its port as an integer in both fields, and `auto` as the default source. -/
def jsonNormalizeClaim (claim : Dict String Json) : Except Exception (Dict String Json) :=
  (jsonClaimMuxPort claim).map fun muxPort =>
    let normalized := match muxPort with
      | none => claim
      | some port => (claim.set "muxPort" (.int port)).set "port" (.int port)
    normalized.setDefault "source" (.str autoPort)

/-- The body of the loop of `_claims_by_key`. -/
def addJsonClaim (claims : Dict String (Dict String Json)) (claim : Json) :
    Except Exception (Dict String (Dict String Json)) :=
  match jsonClaimKey json claim with
  | .error e => .error e
  | .ok key => (jsonNormalizeClaim claim.members).map (claims.set key)

/-- `_claims_by_key`. -/
def jsonClaimsByKey (state : Json) : Except Exception (Dict String (Dict String Json)) :=
  match jsonStateClaims state with
  | .error e => .error e
  | .ok claims =>
    match claims.iter with
    | .error e => .error e
    | .ok items => items.foldlM (addJsonClaim json) Dict.empty

/-- A `MuxState` whose claims are the dicts that were loaded. -/
structure JsonMuxState where
  muxKey : String × String
  ranges : List (Int × Int)
  activeKeys : List String
  reservedPorts : Finset PortKey
  reservedPortOwners : Dict PortKey String
  claims : Dict String (Dict String Json)
  changed : Bool

/-- `MuxState.__init__`. -/
def JsonMuxState.init (muxKey : String × String) (ranges : List (Int × Int)) (state : Json)
    (channels : List Channel) (reservedPorts : Finset PortKey)
    (reservedPortOwners : Dict PortKey String) : Except Exception JsonMuxState :=
  let activeKeys := activeClaimKeys channels
  match jsonClaimsByKey json state.orEmpty with
  | .error e => .error e
  | .ok loaded =>
    (state.orEmpty.get "portClaims").map fun portClaims =>
      { muxKey := muxKey
        ranges := ranges
        activeKeys := activeKeys
        reservedPorts := reservedPorts
        reservedPortOwners := reservedPortOwners
        claims := loaded.filterKeys fun key => key ∈ activeKeys
        changed := (state.truthy && Json.isNone portClaims) ||
          loaded.keys.any fun key => key ∉ activeKeys }

/-- `build_mux_state`. Only the load is inside the `try`. -/
def buildJsonMuxState (mux : MuxService) (channels : List Channel)
    (reservedPortOwners : Dict PortKey String) (configmap : Option StateConfigMap) :
    Except Exception (JsonMuxState × Option ConfigMapAllocationStore × List Event) :=
  let muxKey := (mux.namespace_, mux.name)
  let (ranges, rangeEvents) := muxPortRanges cfg mux
  match collectStaticPortClaims cfg channels with
  | .error e => .error (.valueError e.message)
  | .ok reservedPorts =>
    match (muxStore cfg mux).loadText json configmap with
    | .error e =>
      match e.asValueError with
      | none => .error e
      | some message =>
        (JsonMuxState.init json muxKey [] (.obj []) channels reservedPorts reservedPortOwners).map
          fun muxState => (muxState, none, rangeEvents ++ [⟨"PortAllocationStoreInvalid", message⟩])
    | .ok state =>
      (JsonMuxState.init json muxKey ranges state channels reservedPorts reservedPortOwners).map
        fun muxState => (muxState, some (muxStore cfg mux), rangeEvents)

/-! ## What the code takes for granted -/

/-- A claim is an object with the fields of a reference, and its port is not infinite. -/
def ClaimReadable (claim : Json) : Prop :=
  ∃ members, claim = .obj members ∧ (Json.lookup members "namespace").isSome ∧
    (Json.lookup members "service").isSome ∧ (Json.lookup members "portName").isSome ∧
    ∀ negative, (Json.lookup members "muxPort").or (Json.lookup members "port") ≠
      some (.infinity negative)

def listedClaims (members : List (String × Json)) : Json :=
  match Json.lookup members "portClaims" with
  | none => (Json.lookup members "allocations").getD (.arr [])
  | some .null => (Json.lookup members "allocations").getD (.arr [])
  | some claims => claims

def ClaimsReadable (claims : Json) : Prop :=
  claims = .str "" ∨ claims = .obj [] ∨
    ∃ items, claims = .arr items ∧ ∀ item ∈ items, ClaimReadable item

def NamesMux (muxKey : String × String) (names : List (String × Json)) : Prop :=
  Json.lookup names "namespace" = some (.str muxKey.1) ∧
    Json.lookup names "name" = some (.str muxKey.2)

def ForeignDocument (muxKey : String × String) (members : List (String × Json)) : Prop :=
  ∃ names, Json.lookup members "mux" = some (.obj names) ∧ names ≠ [] ∧ ¬ NamesMux muxKey names

/-- The document says that it is of this mux, or nothing. -/
def OwnDocument (muxKey : String × String) (members : List (String × Json)) : Prop :=
  ∀ mux, Json.lookup members "mux" = some mux → mux.truthy = true →
    ∃ names, mux = .obj names ∧ NamesMux muxKey names

/-- A value that is not taken for an empty state is an object, of another mux or with readable
claims. -/
def DocumentReadable (muxKey : String × String) (state : Json) : Prop :=
  state.truthy = true → ∃ members, state = .obj members ∧
    (ForeignDocument muxKey members ∨
      OwnDocument muxKey members ∧ ClaimsReadable (listedClaims members))

/-- The ConfigMap is another mux's by its annotation, or its text is empty, no JSON, or a readable
document. -/
def StateReadable (json : JsonModule) (muxKey : String × String) (configmap : StateConfigMap) :
    Prop :=
  (∃ owner, configmap.muxAnnotation = some owner ∧ owner ≠ "" ∧
    owner ≠ muxKey.1 ++ "/" ++ muxKey.2) ∨
  ∀ text, configmap.text = some text → text ≠ "" →
    (∀ e, json.loads text = .error e → e.asValueError.isSome) ∧
      ∀ state, json.loads text = .ok state → DocumentReadable muxKey state

variable {cfg}

section Claims

theorem jsonClaimMuxPort_ok_iff (claim : Dict String Json) :
    (∃ port, jsonClaimMuxPort claim = .ok port) ↔
      ∀ negative, (claim.get "muxPort").or (claim.get "port") ≠ some (.infinity negative) := by
  unfold jsonClaimMuxPort
  cases (claim.get "muxPort").or (claim.get "port") with
  | none => simp
  | some value =>
    cases value with
    | str s => cases h : Py.int s <;>
        simp [Json.toInt, h, Exception.isTypeOrValueError, Exception.asValueError]
    | _ => simp [Json.toInt, Exception.isTypeOrValueError, Exception.asValueError]

theorem jsonClaimKey_ok_iff (claim : Json) :
    (∃ key, jsonClaimKey json claim = .ok key) ↔ ∃ members, claim = .obj members ∧
      (Json.lookup members "namespace").isSome ∧ (Json.lookup members "service").isSome ∧
        (Json.lookup members "portName").isSome := by
  cases claim with
  | obj members =>
    simp only [jsonClaimKey, Json.item, Json.get, Json.obj.injEq, exists_eq_left']
    cases Json.lookup members "namespace" with
    | none => simp
    | some namespace_ =>
      cases Json.lookup members "service" with
      | none => simp
      | some service =>
        cases Json.lookup members "portName" with
        | none => simp
        | some portName => simp
  | _ => simp [jsonClaimKey, Json.item]

theorem addJsonClaim_ok_iff (claims : Dict String (Dict String Json)) (claim : Json) :
    (∃ claims', addJsonClaim json claims claim = .ok claims') ↔ ClaimReadable claim := by
  have hkeyed := jsonClaimKey_ok_iff json claim
  unfold addJsonClaim
  cases hkey : jsonClaimKey json claim with
  | error e =>
    refine iff_of_false (by simp) ?_
    rintro ⟨members, rfl, hnamespace, hservice, hportName, -⟩
    obtain ⟨key, hok⟩ := hkeyed.mpr ⟨members, rfl, hnamespace, hservice, hportName⟩
    rw [hkey] at hok
    cases hok
  | ok key =>
    obtain ⟨members, rfl, hfields⟩ := hkeyed.mp ⟨key, hkey⟩
    have hport := jsonClaimMuxPort_ok_iff (Json.obj members).members
    rw [Json.get_members, Json.get_members] at hport
    simp only [ClaimReadable, Json.obj.injEq, exists_eq_left', hfields, true_and, ← hport,
      jsonNormalizeClaim]
    cases jsonClaimMuxPort (Json.obj members).members with
    | error e => simp [Except.map]
    | ok port => simp [Except.map]

theorem claimsReadable_iff_iter (claims : Json) :
    ClaimsReadable claims ↔
      ∃ items, claims.iter = .ok items ∧ ∀ item ∈ items, ClaimReadable item := by
  have hstr : ∀ s, ¬ ClaimReadable (.str s) := by
    rintro s ⟨members, h, -⟩
    cases h
  cases claims with
  | str s =>
    simp only [ClaimsReadable, Json.iter, Json.str.injEq, reduceCtorEq, false_and, exists_false,
      or_false, Except.ok.injEq, exists_eq_left', List.forall_mem_map]
    rw [← String.toList_eq_nil_iff, List.eq_nil_iff_forall_not_mem]
    exact forall₂_congr fun c _ => iff_of_false not_false (hstr _)
  | obj members =>
    simp only [ClaimsReadable, Json.iter, Json.obj.injEq, reduceCtorEq, false_and, exists_false,
      or_false, false_or, Except.ok.injEq, exists_eq_left', List.forall_mem_map]
    rw [← Json.iter_obj_eq_nil_iff, List.eq_nil_iff_forall_not_mem]
    exact forall₂_congr fun key _ => iff_of_false not_false (hstr key)
  | arr items => simp [ClaimsReadable, Json.iter]
  | _ => simp [ClaimsReadable, Json.iter]

theorem jsonStateClaims_obj (members : List (String × Json)) :
    jsonStateClaims (.obj members) = .ok (listedClaims members) := by
  simp only [jsonStateClaims, Json.get, listedClaims]
  cases Json.lookup members "portClaims" with
  | none => rfl
  | some portClaims => cases portClaims <;> rfl

theorem jsonClaimsByKey_ok_iff (members : List (String × Json)) :
    (∃ claims, jsonClaimsByKey json (.obj members) = .ok claims) ↔
      ClaimsReadable (listedClaims members) := by
  rw [jsonClaimsByKey, jsonStateClaims_obj, claimsReadable_iff_iter]
  dsimp only
  cases (listedClaims members).iter with
  | error e => simp
  | ok items =>
    simp only [Except.ok.injEq, exists_eq_left']
    exact Loop.foldlM_ok_iff ClaimReadable (addJsonClaim_ok_iff json) Dict.empty

end Claims

section Load

open ConfigMapAllocationStore

variable (store : ConfigMapAllocationStore) {members : List (String × Json)}

theorem not_foreign_of_own (h : OwnDocument store.muxKey members) :
    ¬ ForeignDocument store.muxKey members := by
  rintro ⟨names, hmux, hne, hforeign⟩
  obtain ⟨names', heq, hnames⟩ := h _ hmux (by simpa [Json.truthy] using hne)
  obtain rfl := Json.obj.inj heq
  exact hforeign hnames

theorem validateJsonMux_obj (names : List (String × Json)) :
    (NamesMux store.muxKey names ∧ store.validateJsonMux json (.obj names) = .ok ()) ∨
    ¬ NamesMux store.muxKey names ∧
      ∃ message, store.validateJsonMux json (.obj names) = .error (.valueError message) := by
  have hnames : NamesMux store.muxKey names ↔
      ((Json.lookup names "namespace").any (·.isText store.muxKey.1) &&
        (Json.lookup names "name").any (·.isText store.muxKey.2)) = true := by
    rw [NamesMux, Bool.and_eq_true, Json.any_isText, Json.any_isText]
  rw [hnames]
  simp only [validateJsonMux, Json.get_obj]
  split_ifs with h
  · exact Or.inl ⟨h, rfl⟩
  · exact Or.inr ⟨h, _, rfl⟩

/-- All that the check of the owner can do with a value that is not taken for an empty state. -/
theorem validateJsonOwner_cases {state : Json} (htruthy : state.truthy = true) :
    (∃ members, state = .obj members ∧ OwnDocument store.muxKey members ∧
      store.validateJsonOwner json state = .ok ()) ∨
    (∃ members message, state = .obj members ∧ ForeignDocument store.muxKey members ∧
      store.validateJsonOwner json state = .error (.valueError message)) ∨
    (∀ members, state = .obj members →
        ¬ OwnDocument store.muxKey members ∧ ¬ ForeignDocument store.muxKey members) ∧
      store.validateJsonOwner json state = .error (.attributeError "get") := by
  cases state with
  | obj members =>
    cases hmux : Json.lookup members "mux" with
    | none =>
      refine Or.inl ⟨members, rfl, fun mux h => ?_, ?_⟩
      · rw [hmux] at h
        cases h
      · simp [validateJsonOwner, htruthy, Json.get, hmux]
    | some mux =>
      by_cases hfalsy : mux.truthy = false
      · refine Or.inl ⟨members, rfl, fun mux' h ht => ?_, ?_⟩
        · obtain rfl := Option.some.inj (hmux.symm.trans h)
          rw [hfalsy] at ht
          cases ht
        · simp [validateJsonOwner, htruthy, Json.get, hmux, hfalsy]
      · rw [Bool.not_eq_false] at hfalsy
        by_cases hobj : ∃ names, mux = .obj names
        · obtain ⟨names, rfl⟩ := hobj
          have hne : names ≠ [] := by simpa [Json.truthy] using hfalsy
          have hcheck : store.validateJsonOwner json (.obj members) =
              store.validateJsonMux json (.obj names) := by
            rw [validateJsonOwner, htruthy, Json.get_obj, hmux]
            simp [hne]
          rw [hcheck]
          obtain ⟨hnames, hok⟩ | ⟨hnames, message, herror⟩ :=
            validateJsonMux_obj json store names
          · refine Or.inl ⟨members, rfl, fun mux' h _ => ⟨names, ?_, hnames⟩, hok⟩
            exact Option.some.inj (h.symm.trans hmux)
          · exact Or.inr (Or.inl ⟨members, message, rfl, ⟨names, hmux, hne, hnames⟩, herror⟩)
        · refine Or.inr (Or.inr ⟨fun members' heq => ?_, ?_⟩)
          · obtain rfl := Json.obj.inj heq
            refine ⟨fun hown => ?_, ?_⟩
            · obtain ⟨names, hnames, -⟩ := hown mux hmux hfalsy
              exact hobj ⟨names, hnames⟩
            · rintro ⟨names, hnames, -⟩
              exact hobj ⟨names, Option.some.inj (hmux.symm.trans hnames)⟩
          · rw [validateJsonOwner, htruthy, Json.get_obj, hmux]
            simp [hfalsy, validateJsonMux, Json.get_of_not_obj (not_exists.mp hobj)]
  | _ =>
    refine Or.inr (Or.inr ⟨?_, ?_⟩)
    · rintro members ⟨⟩
    · rw [validateJsonOwner, htruthy]
      rfl

theorem decodeText_cases (text : Option String) :
    (decodeText json text = .ok (.obj []) ∧ ∀ raw, text = some raw → raw = "") ∨
    ∃ raw, text = some raw ∧ raw ≠ "" ∧
      ((∃ state, json.loads raw = .ok state ∧ decodeText json text = .ok state) ∨
        ∃ e e', json.loads raw = .error e ∧ decodeText json text = .error e' ∧
          e'.asValueError.isSome = e.asValueError.isSome) := by
  unfold decodeText
  cases text with
  | none => exact Or.inl ⟨rfl, by simp⟩
  | some raw =>
    by_cases hempty : raw = ""
    · exact Or.inl ⟨if_pos hempty, by simp [hempty]⟩
    · refine Or.inr ⟨raw, rfl, hempty, ?_⟩
      simp only [if_neg hempty]
      cases json.loads raw with
      | ok state => exact Or.inl ⟨state, rfl, rfl⟩
      | error e =>
        refine Or.inr ⟨e, ?_⟩
        cases e with
        | jsonDecodeError message => exact ⟨_, rfl, rfl, rfl⟩
        | _ => exact ⟨_, rfl, rfl, rfl⟩

/-- The outcome of a load that a pass survives: an error that is caught, or claims to start from. -/
def LoadHandled (outcome : Except Exception Json) : Prop :=
  match outcome with
  | .error e => e.asValueError.isSome = true
  | .ok state => state.truthy = true →
    ∃ members, state = .obj members ∧ ClaimsReadable (listedClaims members)

theorem checkedDocument_handled_iff (state : Json) :
    LoadHandled (match store.validateJsonOwner json state with
      | .error e => .error e
      | .ok () => .ok state) ↔ DocumentReadable store.muxKey state := by
  unfold DocumentReadable
  by_cases htruthy : state.truthy = true
  · obtain ⟨members, rfl, hown, hcheck⟩ | ⟨members, message, rfl, hforeign, hcheck⟩ |
      ⟨hneither, hcheck⟩ := validateJsonOwner_cases json store htruthy
    · simp [hcheck, LoadHandled, hown, not_foreign_of_own store hown]
    · rw [hcheck]
      exact iff_of_true rfl fun _ => ⟨members, rfl, Or.inl hforeign⟩
    · rw [hcheck]
      refine iff_of_false (by simp [LoadHandled, Exception.asValueError]) fun h => ?_
      obtain ⟨members, rfl, hmembers⟩ := h htruthy
      obtain ⟨hown, hforeign⟩ := hneither members rfl
      exact hmembers.elim hforeign fun h => hown h.1
  · have hcheck : store.validateJsonOwner json state = .ok () := by
      simp [validateJsonOwner, htruthy]
    rw [hcheck]
    exact iff_of_true (fun h => absurd h htruthy) fun h => absurd h htruthy

theorem loadText_handled_iff (configmap : StateConfigMap) :
    LoadHandled (store.loadText json (some configmap)) ↔
      StateReadable json store.muxKey configmap := by
  have howner := store.ownerAccepted_iff ⟨configmap.muxAnnotation, .missing⟩
  unfold StateReadable loadText
  dsimp only
  cases hcheck : store.validateConfigmapOwner ⟨configmap.muxAnnotation, .missing⟩ with
  | error e =>
    refine iff_of_true (by simp [LoadHandled, Exception.asValueError])
      (Or.inl (by_contra fun hnot => ?_))
    rw [howner.mpr fun owner howner hne => by_contra fun h => hnot ⟨owner, howner, hne, h⟩] at hcheck
    cases hcheck
  | ok _ =>
    rw [or_iff_right fun ⟨owner, howned, hne, h⟩ => h (howner.mp hcheck owner howned hne)]
    dsimp only
    obtain ⟨hdecode, hempty⟩ | ⟨raw, htext, hne, hloads⟩ := decodeText_cases json configmap.text
    · rw [hdecode]
      refine iff_of_true (fun h => by simp at h) fun raw htext hne => ?_
      exact absurd (hempty raw htext) hne
    · obtain ⟨state, hstate, hdecode⟩ | ⟨e, e', he, hdecode, hsame⟩ := hloads
      · rw [hdecode, htext]
        simp only [Option.some.injEq, forall_eq', hne, ne_eq, not_false_eq_true, forall_const,
          hstate, reduceCtorEq, IsEmpty.forall_iff, implies_true, true_and, Except.ok.injEq]
        exact checkedDocument_handled_iff json store state
      · rw [hdecode, htext]
        simp [hne, he, LoadHandled, hsame]

end Load

section Build

theorem init_ok_iff (muxKey : String × String) (ranges : List (Int × Int)) (state : Json)
    (channels : List Channel) (reservedPorts : Finset PortKey) (owners : Dict PortKey String) :
    (∃ muxState, JsonMuxState.init json muxKey ranges state channels reservedPorts owners =
      .ok muxState) ↔
    (state.truthy = true →
      ∃ members, state = .obj members ∧ ClaimsReadable (listedClaims members)) := by
  have hinit : (∃ muxState, JsonMuxState.init json muxKey ranges state channels reservedPorts
      owners = .ok muxState) ↔
      ∃ members, state.orEmpty = .obj members ∧ ClaimsReadable (listedClaims members) := by
    unfold JsonMuxState.init
    by_cases hobj : ∃ members, state.orEmpty = .obj members
    · obtain ⟨members, hmembers⟩ := hobj
      simp only [hmembers, Json.get_obj, Json.obj.injEq, exists_eq_left',
        ← jsonClaimsByKey_ok_iff json]
      cases jsonClaimsByKey json (.obj members) with
      | error e => simp
      | ok loaded => simp [Except.map]
    · have hclaims : jsonClaimsByKey json state.orEmpty = .error (.attributeError "get") := by
        rw [jsonClaimsByKey, jsonStateClaims, Json.get_of_not_obj (not_exists.mp hobj)]
      rw [hclaims]
      refine iff_of_false (by simp) ?_
      rintro ⟨members, hmembers, -⟩
      exact hobj ⟨members, hmembers⟩
  rw [hinit, Json.orEmpty]
  split_ifs with htruthy
  · simp [htruthy]
  · refine iff_of_true ⟨[], rfl, Or.inr (Or.inr ⟨[], rfl, by simp⟩)⟩ fun h => absurd h htruthy

/-- The stateless fallback never raises. -/
theorem init_empty (json : JsonModule) (muxKey : String × String) (channels : List Channel)
    (reservedPorts : Finset PortKey) (owners : Dict PortKey String) :
    ∃ muxState, JsonMuxState.init json muxKey [] (.obj []) channels reservedPorts owners =
      .ok muxState ∧ muxState.ranges = [] ∧ muxState.claims = Dict.empty :=
  ⟨_, rfl, rfl, rfl⟩

/-- What `build_mux_state` is to return: the loaded claims and the store, or the stateless
fallback. -/
def StateHandled (cfg : Config) (json : JsonModule) (mux : MuxService) (channels : List Channel)
    (owners : Dict PortKey String) (configmap : StateConfigMap) : Prop :=
  ∃ muxState store events,
    buildJsonMuxState cfg json mux channels owners (some configmap) =
      .ok (muxState, store, events) ∧
    ((∃ state reserved, (muxStore cfg mux).loadText json (some configmap) = .ok state ∧
        JsonMuxState.init json (mux.namespace_, mux.name) (muxPortRanges cfg mux).1 state channels
          reserved owners = .ok muxState ∧ store = some (muxStore cfg mux)) ∨
      muxState.ranges = [] ∧ muxState.claims = Dict.empty ∧ store = none)

/-- A state ConfigMap is handled exactly when it is readable. -/
theorem corrupt_state_handled_iff (cfg : Config) (json : JsonModule) (mux : MuxService)
    (channels : List Channel) (hadmitted : ∀ c ∈ channels, c.Admitted)
    (owners : Dict PortKey String) (configmap : StateConfigMap) :
    StateHandled cfg json mux channels owners configmap ↔
      StateReadable json (mux.namespace_, mux.name) configmap := by
  obtain ⟨reserved, hreserved⟩ := collectStaticPortClaims_ok cfg hadmitted
  have hload := loadText_handled_iff json (muxStore cfg mux) configmap
  have hkey : (muxStore cfg mux).muxKey = (mux.namespace_, mux.name) := rfl
  rw [← hkey, ← hload, StateHandled, buildJsonMuxState]
  simp only [hreserved]
  cases hloaded : (muxStore cfg mux).loadText json (some configmap) with
  | error e =>
    cases hcaught : e.asValueError with
    | none => simp [LoadHandled, hcaught]
    | some message =>
      refine iff_of_true ?_ (by simp [LoadHandled, hcaught])
      obtain ⟨muxState, hinit, hranges, hclaims⟩ :=
        init_empty json (mux.namespace_, mux.name) channels reserved owners
      refine ⟨muxState, none,
        (muxPortRanges cfg mux).2 ++ [⟨"PortAllocationStoreInvalid", message⟩], ?_,
        Or.inr ⟨hranges, hclaims, rfl⟩⟩
      simp only [hcaught, hinit]
      rfl
  | ok state =>
    rw [LoadHandled, ← init_ok_iff json (mux.namespace_, mux.name)
      (muxPortRanges cfg mux).1 state channels reserved owners]
    constructor
    · rintro ⟨muxState, store, events, hbuild, -⟩
      cases hinit : JsonMuxState.init json (mux.namespace_, mux.name) (muxPortRanges cfg mux).1
          state channels reserved owners with
      | error e => simp [hinit, Except.map] at hbuild
      | ok muxState' => exact ⟨muxState', rfl⟩
    · rintro ⟨muxState, hinit⟩
      refine ⟨muxState, some (muxStore cfg mux), (muxPortRanges cfg mux).2, ?_,
        Or.inl ⟨state, reserved, rfl, hinit, rfl⟩⟩
      simp only [hinit]
      rfl

/-- The claim of `web` on 9000/TCP, in a document of `default/mux`. -/
def claimDocument : Json :=
  .obj [("mux", .obj [("namespace", .str "default"), ("name", .str "mux")]),
    ("portClaims", .arr [.obj [("namespace", .str "default"), ("service", .str "web"),
      ("portName", .str "http"), ("protocol", .str "TCP"), ("port", .int 9000),
      ("muxPort", .int 9000), ("source", .str "auto")]])]

def claimText : String :=
  "\x7b\"mux\": \x7b\"namespace\": \"default\", \"name\": \"mux\"\x7d, " ++
    "\"portClaims\": [\x7b\"namespace\": \"default\", \"service\": \"web\", " ++
    "\"portName\": \"http\", \"protocol\": \"TCP\", \"port\": 9000, " ++
    "\"muxPort\": 9000, \"source\": \"auto\"\x7d]\x7d"

/-- A decoder for two texts, as the standard one reads them. -/
def sampleJson : JsonModule where
  loads text :=
    if text = "[1]" then .ok (.arr [.int 1])
    else if text = claimText then .ok claimDocument
    else .error (.jsonDecodeError "Expecting value")
  str
    | .str s => s
    | _ => ""

def claimedWeb : Channel :=
  sampleChannel "web" "http" 80 [("svc-mux.nowake.ai/external-ports", "http:auto")]

theorem corrupt_state_handled_claimDocument :
    StateHandled sampleConfig sampleJson (sampleMux [] []) [claimedWeb] Dict.empty
      ⟨none, some claimText⟩ ∧
    (buildJsonMuxState sampleConfig sampleJson (sampleMux [] []) [claimedWeb] Dict.empty
      (some ⟨none, some claimText⟩)).toOption.map (fun built => built.1.claims.keys) =
        some ["TCP:default:web:http"] := by
  refine ⟨(corrupt_state_handled_iff sampleConfig sampleJson (sampleMux [] []) [claimedWeb]
    (by decide +kernel) Dict.empty ⟨none, some claimText⟩).mpr (Or.inr fun text htext _ => ?_),
    by decide +kernel⟩
  obtain rfl := Option.some.inj htext
  have hloads : sampleJson.loads claimText = .ok claimDocument := by
    have hne : claimText ≠ "[1]" := by decide +kernel
    simp [sampleJson, hne]
  rw [hloads]
  refine ⟨fun e he => (nomatch he), fun state hstate _ => ?_⟩
  obtain rfl := Except.ok.inj hstate
  refine ⟨_, rfl, Or.inr ⟨fun mux hmux _ => ?_, Or.inr (Or.inr ⟨_, rfl, fun item hitem => ?_⟩)⟩⟩
  · obtain rfl := Option.some.inj (hmux.symm.trans rfl)
    exact ⟨_, rfl, rfl, rfl⟩
  · obtain rfl := List.mem_singleton.mp hitem
    exact ⟨_, rfl, rfl, rfl, rfl, fun negative h => by cases h⟩

/-- A list in place of the document is JSON, and raises. -/
theorem corrupt_state_raises_list :
    ¬ StateHandled sampleConfig sampleJson (sampleMux [] []) [] Dict.empty ⟨none, some "[1]"⟩ ∧
      ∃ outcome, buildJsonMuxState sampleConfig sampleJson (sampleMux [] []) [] Dict.empty
        (some ⟨none, some "[1]"⟩) = outcome ∧ outcome = .error (.attributeError "get") := by
  have hraises : buildJsonMuxState sampleConfig sampleJson (sampleMux [] []) [] Dict.empty
      (some ⟨none, some "[1]"⟩) = .error (.attributeError "get") := rfl
  refine ⟨?_, _, rfl, hraises⟩
  rintro ⟨muxState, store, events, hbuild, -⟩
  rw [hraises] at hbuild
  cases hbuild

end Build

end SvcLbMux
