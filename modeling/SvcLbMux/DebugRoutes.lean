import SvcLbMux.DebugAuth
import SvcLbMux.DebugEvents
import SvcLbMux.DebugTopology
import SvcLbMux.Library.Loop

namespace SvcLbMux

open Py

/-- `urlPath` is `request.url.path`, which the framework builds from the header `Host` and the path;
the routes go by the path alone. The header `Authorization` is empty when there is none. -/
structure HttpRequest where
  method : String
  path : String
  urlPath : String
  authorization : String
  host : Option String
  port : Option String
  resource : Option String

structure Snapshot where
  muxServices : Dict String DebugMux
  channelServices : Dict String DebugChannel
  endpoints : Dict String DebugEndpoints
  events : List DebugEvent

inductive Content where
  | file (name : String)
  | text (content : String)
  | state (snapshot : Snapshot)
  | topology (topology : Dict String TopologyMux)
  | config (actionsEnabled : Bool)
  | success (message : String)
  | failure (error : String)
  | status (status : String)

structure HttpResponse where
  content : Content
  statusCode : ℕ
  headers : Dict String String

/-- What the web framework decides: the headers that a response has by its content, and the response
to a request that has no route. -/
structure Framework where
  mediaHeaders : Content → Dict String String
  unrouted : HttpRequest → HttpResponse

/-- `AUTH_TOKEN` and `DEBUG_WEB_ACTIONS_ENABLED`. -/
structure ApiSettings where
  authToken : String
  actionsEnabled : Bool

/-- How `test_tcp_connection` ends: with the result of `connect_ex`, or with an exception. -/
inductive ConnectionOutcome where
  | code (result : Int)
  | gaierror (error : String)
  | timeout
  | exception (error : String)

/-- What `state_store` holds, and the calls of `test_tcp_connection`. -/
structure DebugWeb where
  store : DebugState
  events : List DebugEvent
  connections : List (String × Int)

def DebugWeb.empty : DebugWeb := ⟨DebugState.empty, [], []⟩

def snapshot (web : DebugWeb) : Snapshot where
  muxServices := Dict.ofList (web.store.muxServices.entries.map fun e => (keyText e.1, e.2))
  channelServices := Dict.ofList (web.store.channelServices.entries.map fun e => (keyText e.1, e.2))
  endpoints := Dict.ofList (web.store.endpoints.entries.map fun e => (keyText e.1, e.2))
  events := web.events

section Routes

variable (framework : Framework) (settings : ApiSettings)

def jsonResponse (content : Content) (statusCode : ℕ) : HttpResponse :=
  ⟨content, statusCode, framework.mediaHeaders content⟩

/-- The event and the response of a test that has ended, by its outcome. -/
def tcpResult (host : String) (port : Int) : ConnectionOutcome → String × String × Content
  | .code result =>
    if result = 0 then
      ("Normal", "ConnectionTest: Successfully connected to " ++ host ++ ":" ++ str port,
        .success ("Connected to " ++ host ++ ":" ++ str port))
    else
      ("Warning", "ConnectionTest: Connection failed to " ++ host ++ ":" ++ str port ++
        " (error code " ++ str result ++ ")",
        .failure ("Connection failed with error code " ++ str result))
  | .gaierror error =>
    ("Warning", "ConnectionTest: DNS resolution failed for " ++ host ++ ":" ++ str port ++ " - " ++
      error, .failure ("DNS resolution failed: " ++ error))
  | .timeout =>
    ("Warning", "ConnectionTest: Connection timeout to " ++ host ++ ":" ++ str port,
      .failure "Connection timeout")
  | .exception error =>
    ("Error", "ConnectionTest: Unexpected error testing " ++ host ++ ":" ++ str port ++ " - " ++
      error, .failure ("Unexpected error: " ++ error))

def connectionRecord (now resource host : String) (port : Int) (outcome : ConnectionOutcome) :
    DebugRecord :=
  ⟨now, (tcpResult host port outcome).1, resource, (tcpResult host port outcome).2.1⟩

def handleTcpResult (host : String) (port : Int) (resource now : String)
    (outcome : ConnectionOutcome) (web : DebugWeb) : HttpResponse × DebugWeb :=
  (jsonResponse framework (tcpResult host port outcome).2.2 200,
    { web with
      events := DebugStateStore.recordEvent web.events
        (connectionRecord now resource host port outcome)
      connections := web.connections ++ [(host, port)] })

def handleTestTcp (req : HttpRequest) (now : String) (outcome : ConnectionOutcome)
    (web : DebugWeb) : HttpResponse × DebugWeb :=
  let host := req.host.getD ""
  let port := req.port.getD ""
  if settings.actionsEnabled = false then
    (jsonResponse framework (.failure "Debug actions are disabled") 403, web)
  else if host = "" ∨ port = "" then
    (jsonResponse framework (.failure "Missing host or port") 400, web)
  else
    match int port with
    | none => (jsonResponse framework (.failure "Invalid port") 400, web)
    | some portInt =>
      if ¬ (1 ≤ portInt ∧ portInt ≤ 65535) then
        (jsonResponse framework (.failure "Port out of range") 400, web)
      else handleTcpResult framework host portInt (req.resource.getD "unknown") now outcome web

/-- The routes of `create_app`. -/
def route (req : HttpRequest) (now : String) (outcome : ConnectionOutcome) (web : DebugWeb) :
    HttpResponse × DebugWeb :=
  if req.method ≠ "GET" then (framework.unrouted req, web)
  else if req.path = "/" then (jsonResponse framework (.file "index.html") 200, web)
  else if req.path = "/api/state" then
    (jsonResponse framework (.state (snapshot web)) 200, web)
  else if req.path = "/api/topology" then
    (jsonResponse framework (.topology (topology web.store)) 200, web)
  else if req.path = "/api/config" then
    (jsonResponse framework (.config settings.actionsEnabled) 200, web)
  else if req.path = "/api/test-tcp" then handleTestTcp framework settings req now outcome web
  else if req.path = "/healthz" then (jsonResponse framework (.status "ok") 200, web)
  else (framework.unrouted req, web)

def unauthorized : HttpResponse :=
  let content := Content.text "Unauthorized - authentication required"
  ⟨content, 401, (framework.mediaHeaders content).set "www-authenticate"
    "Basic realm=\"Service LoadBalancer Multiplexer Debug UI\""⟩

def authMiddleware (req : HttpRequest) (callNext : DebugWeb → HttpResponse × DebugWeb)
    (web : DebugWeb) : HttpResponse × DebugWeb :=
  if req.urlPath = "/healthz" then callNext web
  else if checkAuth settings.authToken req.authorization = false then (unauthorized framework, web)
  else callNext web

def securityHeaders : List (String × String) :=
  [("Cache-Control", "no-store"),
    ("Referrer-Policy", "no-referrer"),
    ("X-Content-Type-Options", "nosniff"),
    ("X-Frame-Options", "DENY"),
    ("Permissions-Policy", "camera=(), geolocation=(), microphone=()")]

def withSecurityHeaders (response : HttpResponse) : HttpResponse :=
  { response with
    headers := response.headers.setDefaults (securityHeaders.map fun h => (lower h.1, h.2)) }

def securityMiddleware (callNext : DebugWeb → HttpResponse × DebugWeb) (web : DebugWeb) :
    HttpResponse × DebugWeb :=
  let next := callNext web
  (withSecurityHeaders next.1, next.2)

def serve (req : HttpRequest) (now : String) (outcome : ConnectionOutcome) :
    DebugWeb → HttpResponse × DebugWeb :=
  securityMiddleware (authMiddleware framework settings req (route framework settings req now outcome))

end Routes

/-! ## What a request does -/

section Request

variable (settings : ApiSettings) (req : HttpRequest)

/-- The request passes `auth_middleware`. -/
def Admitted : Prop :=
  req.urlPath = "/healthz" ∨ checkAuth settings.authToken req.authorization = true

instance : Decidable (Admitted settings req) := inferInstanceAs (Decidable (_ ∨ _))

/-- The host and the port that the parameters of a test name. -/
def testedAddress : Option (String × Int) :=
  match req.host, (req.port.bind int) with
  | some host, some port =>
    if host ≠ "" ∧ 1 ≤ port ∧ port ≤ 65535 then some (host, port) else none
  | _, _ => none

def connectionOf : Option (String × Int) :=
  if Admitted settings req ∧ req.method = "GET" ∧ req.path = "/api/test-tcp" ∧
      settings.actionsEnabled = true then
    testedAddress req
  else none

end Request

def DebugWeb.tested (web : DebugWeb) (req : HttpRequest) (now : String)
    (outcome : ConnectionOutcome) (address : String × Int) : DebugWeb :=
  { web with
    events := DebugStateStore.recordEvent web.events
      (connectionRecord now (req.resource.getD "unknown") address.1 address.2 outcome)
    connections := web.connections ++ [address] }

section Request

variable {framework : Framework} {settings : ApiSettings} {req : HttpRequest} {now : String}
  {outcome : ConnectionOutcome}

theorem handleTestTcp_web (h : settings.actionsEnabled = true) (web : DebugWeb) :
    (handleTestTcp framework settings req now outcome web).2 =
      ((testedAddress req).map (web.tested req now outcome)).getD web := by
  unfold handleTestTcp testedAddress
  dsimp only
  rw [h, if_neg (by decide)]
  cases req.host with
  | none => rfl
  | some host =>
    cases req.port with
    | none =>
      dsimp only [Option.getD_none]
      rw [if_pos (Or.inr rfl)]
      rfl
    | some port =>
      dsimp only [Option.getD_some, Option.bind_some]
      by_cases hempty : host = "" ∨ port = ""
      · rw [if_pos hempty]
        obtain rfl | rfl := hempty
        · cases int port <;> rfl
        · rfl
      · rw [if_neg hempty]
        cases int port with
        | none => rfl
        | some portInt =>
          dsimp only
          by_cases hrange : 1 ≤ portInt ∧ portInt ≤ 65535
          · rw [if_neg (not_not.mpr hrange), if_pos ⟨fun hhost => hempty (Or.inl hhost), hrange⟩]
            rfl
          · rw [if_pos hrange, if_neg fun hall => hrange hall.2]
            rfl

theorem handleTestTcp_disabled (h : settings.actionsEnabled = false) (web : DebugWeb) :
    (handleTestTcp framework settings req now outcome web).2 = web := by
  unfold handleTestTcp
  dsimp only
  rw [if_pos h]

theorem route_test_tcp (hget : req.method = "GET") (hpath : req.path = "/api/test-tcp")
    (web : DebugWeb) : route framework settings req now outcome web =
      handleTestTcp framework settings req now outcome web := by
  rw [route, hpath, if_neg (not_not.mpr hget), if_neg (by decide), if_neg (by decide),
    if_neg (by decide), if_neg (by decide), if_pos rfl]

theorem route_web (web : DebugWeb) :
    (route framework settings req now outcome web).2 =
      if req.method = "GET" ∧ req.path = "/api/test-tcp" ∧ settings.actionsEnabled = true then
        ((testedAddress req).map (web.tested req now outcome)).getD web
      else web := by
  by_cases hget : req.method = "GET"
  · by_cases hpath : req.path = "/api/test-tcp"
    · rw [route_test_tcp hget hpath]
      cases hactions : settings.actionsEnabled with
      | false =>
        rw [if_neg fun h => Bool.false_ne_true h.2.2]
        exact handleTestTcp_disabled hactions web
      | true =>
        rw [if_pos ⟨hget, hpath, rfl⟩]
        exact handleTestTcp_web hactions web
    · rw [if_neg fun h => hpath h.2.1, route, if_neg (not_not.mpr hget)]
      split_ifs <;> rfl
  · rw [if_neg fun h => hget h.1, route, if_pos hget]

theorem authMiddleware_of_admitted (h : Admitted settings req)
    (callNext : DebugWeb → HttpResponse × DebugWeb) (web : DebugWeb) :
    authMiddleware framework settings req callNext web = callNext web := by
  unfold authMiddleware
  by_cases hhealth : req.urlPath = "/healthz"
  · rw [if_pos hhealth]
  · rw [if_neg hhealth, h.resolve_left hhealth, if_neg (by decide)]

theorem authMiddleware_of_not_admitted (h : ¬ Admitted settings req)
    (callNext : DebugWeb → HttpResponse × DebugWeb) (web : DebugWeb) :
    authMiddleware framework settings req callNext web = (unauthorized framework, web) := by
  obtain ⟨hhealth, hauth⟩ := not_or.mp h
  rw [authMiddleware, if_neg hhealth, if_pos (Bool.eq_false_iff.mpr hauth)]

theorem serve_web (web : DebugWeb) :
    (serve framework settings req now outcome web).2 =
      ((connectionOf settings req).map (web.tested req now outcome)).getD web := by
  rw [serve, securityMiddleware]
  dsimp only
  by_cases hadmitted : Admitted settings req
  · rw [authMiddleware_of_admitted hadmitted, route_web, connectionOf]
    simp only [hadmitted, true_and]
    split_ifs <;> rfl
  · rw [authMiddleware_of_not_admitted hadmitted, connectionOf, if_neg fun h => hadmitted h.1]
    rfl

end Request

/-! ## Runs -/

/-- A request comes, with its outcome should it make a connection, or the controller changes what
the API shows. A request stands where it reads the store, or where its connection has ended. -/
inductive ApiStep where
  | request (req : HttpRequest) (now : String) (outcome : ConnectionOutcome)
  | change (op : StoreOp)
  | record (call : DebugRecord)

/-- The API after some steps, with the responses that it has given. -/
structure ApiRun where
  web : DebugWeb
  answered : List (HttpRequest × HttpResponse)

section Run

variable (cfg : Config) (framework : Framework) (settings : ApiSettings)

def apiStep (run : ApiRun) : ApiStep → ApiRun
  | .request req now outcome =>
    let (response, web) := serve framework settings req now outcome run.web
    ⟨web, run.answered ++ [(req, response)]⟩
  | .change op => { run with web := { run.web with store := applyOp cfg run.web.store op } }
  | .record call =>
    { run with web := { run.web with events := DebugStateStore.recordEvent run.web.events call } }

def apiRun (steps : List ApiStep) : ApiRun :=
  steps.foldl (apiStep cfg framework settings) ⟨DebugWeb.empty, []⟩

/-- The request comes without the token, and its `Host` does not make the framework build the path
`/healthz` for another one. -/
def HttpRequest.Foreign (req : HttpRequest) : Prop :=
  checkAuth settings.authToken req.authorization = false ∧
    (req.urlPath = "/healthz" → req.path = "/healthz")

instance (req : HttpRequest) : Decidable (req.Foreign settings) :=
  inferInstanceAs (Decidable (_ ∧ _))

namespace ApiStep

def IsForeign : ApiStep → Prop
  | .request req _ _ => req.Foreign settings
  | _ => False

instance : DecidablePred (IsForeign settings)
  | .request req _ _ => inferInstanceAs (Decidable (req.Foreign settings))
  | .change _ => instDecidableFalse
  | .record _ => instDecidableFalse

def storeOp : ApiStep → Option StoreOp
  | .change op => some op
  | _ => none

def connection : ApiStep → Option (String × Int)
  | .request req _ _ => connectionOf settings req
  | _ => none

/-- The event that the step records: a request records one for the connection that it makes. -/
def recorded : ApiStep → Option DebugRecord
  | .request req now outcome => (connectionOf settings req).map fun address =>
    connectionRecord now (req.resource.getD "unknown") address.1 address.2 outcome
  | .change _ => none
  | .record call => some call

end ApiStep

end Run

variable {cfg : Config} {framework : Framework} {settings : ApiSettings}

theorem web_apiStep (run : ApiRun) (step : ApiStep) :
    (apiStep cfg framework settings run step).web =
      ⟨step.storeOp.toList.foldl (applyOp cfg) run.web.store,
        (step.recorded settings).toList.foldl DebugStateStore.recordEvent run.web.events,
        run.web.connections ++ (step.connection settings).toList⟩ := by
  cases step with
  | change op => simp [apiStep, ApiStep.storeOp, ApiStep.recorded, ApiStep.connection]
  | record call => simp [apiStep, ApiStep.storeOp, ApiStep.recorded, ApiStep.connection]
  | request req now outcome =>
    change (serve framework settings req now outcome run.web).2 = _
    rw [serve_web]
    dsimp only [ApiStep.storeOp, ApiStep.recorded, ApiStep.connection]
    cases connectionOf settings req with
    | none => simp
    | some address => rfl

theorem filterMap_singleton_eq_toList {α β : Type} (f : α → Option β) (a : α) :
    [a].filterMap f = (f a).toList := by
  cases h : f a <;> simp [h]

theorem web_apiRun (steps : List ApiStep) :
    (apiRun cfg framework settings steps).web =
      ⟨storeAfter cfg (steps.filterMap ApiStep.storeOp),
        DebugStateStore.recordEvents (steps.filterMap (ApiStep.recorded settings)),
        steps.filterMap (ApiStep.connection settings)⟩ := by
  induction steps using List.reverseRecOn with
  | nil => rfl
  | append_singleton steps step ih =>
    rw [apiRun, List.foldl_concat, web_apiStep, ← apiRun, ih]
    simp only [List.filterMap_append, storeAfter, DebugStateStore.recordEvents, List.foldl_append,
      filterMap_singleton_eq_toList]

theorem connectionOf_of_foreign {req : HttpRequest} (h : req.Foreign settings) :
    connectionOf settings req = none := by
  apply if_neg
  rintro ⟨hadmitted, -, hpath, -⟩
  have hhealth : req.urlPath = "/healthz" :=
    hadmitted.resolve_right fun hauth => Bool.false_ne_true (h.1.symm.trans hauth)
  exact absurd (hpath.symm.trans (h.2 hhealth)) (by decide)

/-- `/healthz` says the same whatever the store holds. -/
theorem route_healthz {req : HttpRequest} (h : req.path = "/healthz") (now now' : String)
    (outcome outcome' : ConnectionOutcome) (web web' : DebugWeb) :
    (route framework settings req now outcome web).1 =
      (route framework settings req now' outcome' web').1 := by
  unfold route
  rw [h]
  by_cases hget : req.method = "GET"
  · simp [hget]
  · rw [if_pos hget, if_pos hget]

theorem serve_of_foreign {req : HttpRequest} (h : req.Foreign settings) (now now' : String)
    (outcome outcome' : ConnectionOutcome) (web web' : DebugWeb) :
    (serve framework settings req now outcome web).1 =
      (serve framework settings req now' outcome' web').1 := by
  rw [serve, serve, securityMiddleware, securityMiddleware]
  apply congrArg withSecurityHeaders
  by_cases hadmitted : Admitted settings req
  · have hhealth : req.urlPath = "/healthz" :=
      hadmitted.resolve_right fun hauth => Bool.false_ne_true (h.1.symm.trans hauth)
    rw [authMiddleware_of_admitted hadmitted, authMiddleware_of_admitted hadmitted]
    exact route_healthz (h.2 hhealth) now now' outcome outcome' web web'
  · rw [authMiddleware_of_not_admitted hadmitted, authMiddleware_of_not_admitted hadmitted]

/-- A request without the token that is not foreign is answered as one with the token. -/
theorem serve_of_disguised {req : HttpRequest}
    (hauth : checkAuth settings.authToken req.authorization = false) (h : ¬ req.Foreign settings)
    (now : String) (outcome : ConnectionOutcome) (web : DebugWeb) :
    req.urlPath = "/healthz" ∧ req.path ≠ "/healthz" ∧
      serve framework settings req now outcome web =
        securityMiddleware (route framework settings req now outcome) web := by
  have hpaths : req.urlPath = "/healthz" ∧ req.path ≠ "/healthz" :=
    Classical.not_imp.mp fun hsame => h ⟨hauth, hsame⟩
  refine ⟨hpaths.1, hpaths.2, ?_⟩
  rw [serve, securityMiddleware, securityMiddleware, authMiddleware_of_admitted (Or.inl hpaths.1)]

theorem headers_serve (req : HttpRequest) (now : String) (outcome : ConnectionOutcome)
    (web : DebugWeb) {header : String × String} (h : header ∈ securityHeaders) :
    lower header.1 ∈ (serve framework settings req now outcome web).1.headers.keys := by
  have hlowered : (lower header.1, header.2) ∈ securityHeaders.map fun h => (lower h.1, h.2) :=
    List.mem_map_of_mem h
  obtain ⟨value, hvalue⟩ := Dict.exists_get_setDefaults_empty hlowered
  rw [Dict.get_setDefaults, Dict.get_empty, Option.none_or] at hvalue
  apply (Dict.mem_keys_iff _ _).mpr
  rw [serve, securityMiddleware, withSecurityHeaders]
  dsimp only
  rw [Dict.get_setDefaults, hvalue]
  exact ⟨_, Option.or_some⟩

def ApiRun.withoutForeign (settings : ApiSettings) (run : ApiRun) : ApiRun :=
  ⟨run.web, run.answered.filter fun answer => ¬ answer.1.Foreign settings⟩

theorem withoutForeign_apiStep {step : ApiStep} (h : ¬ step.IsForeign settings) (run : ApiRun) :
    (apiStep cfg framework settings run step).withoutForeign settings =
      apiStep cfg framework settings (run.withoutForeign settings) step := by
  cases step with
  | change op => rfl
  | record call => rfl
  | request req now outcome =>
    have hkept : ¬ req.Foreign settings := h
    simp only [apiStep, ApiRun.withoutForeign, List.filter_append]
    simp [hkept]

theorem withoutForeign_of_isForeign {step : ApiStep} (h : step.IsForeign settings) (run : ApiRun) :
    (apiStep cfg framework settings run step).withoutForeign settings =
      run.withoutForeign settings := by
  cases step with
  | change op => exact nomatch h
  | record call => exact nomatch h
  | request req now outcome =>
    have hforeign : req.Foreign settings := h
    have hweb := @serve_web framework settings req now outcome run.web
    rw [connectionOf_of_foreign hforeign] at hweb
    simp only [apiStep, ApiRun.withoutForeign, List.filter_append, hweb]
    simp [hforeign]

theorem apiRun_filter (steps : List ApiStep) :
    apiRun cfg framework settings (steps.filter fun step => ¬ step.IsForeign settings) =
      (apiRun cfg framework settings steps).withoutForeign settings := by
  symm
  apply Loop.foldl_component
  · intro run step hkept
    exact withoutForeign_apiStep (of_decide_eq_true hkept) run
  · intro run step hforeign
    exact withoutForeign_of_isForeign (not_not.mp (of_decide_eq_false hforeign)) run

theorem mem_answered {steps : List ApiStep} {answer : HttpRequest × HttpResponse}
    (h : answer ∈ (apiRun cfg framework settings steps).answered) :
    ∃ now outcome web, answer.2 = (serve framework settings answer.1 now outcome web).1 := by
  induction steps using List.reverseRecOn with
  | nil => exact nomatch h
  | append_singleton steps step ih =>
    rw [apiRun, List.foldl_concat, ← apiRun] at h
    cases step with
    | change op => exact ih h
    | record call => exact ih h
    | request req now outcome =>
      obtain h | h := List.mem_append.mp h
      · exact ih h
      · obtain rfl := List.mem_singleton.mp h
        exact ⟨now, outcome, _, rfl⟩

/-- Whatever requests come between the changes of the controller: they leave the muxes and channels
as they are, and make those connections that an admitted request asks for while actions are enabled,
each with its event. Foreign requests do not take part: without them the API and the other answers
are the same, and their own answers are those of an API that knows nothing. Other requests without
the token, whose `Host` makes the framework build `/healthz`, are served as if they had it. Every
response has the security headers. -/
theorem debug_api_only_observes (cfg : Config) (framework : Framework) (settings : ApiSettings)
    (steps : List ApiStep) :
    (apiRun cfg framework settings steps).web =
      ⟨storeAfter cfg (steps.filterMap ApiStep.storeOp),
        DebugStateStore.recordEvents (steps.filterMap (ApiStep.recorded settings)),
        steps.filterMap (ApiStep.connection settings)⟩ ∧
    apiRun cfg framework settings (steps.filter fun step => ¬ step.IsForeign settings) =
      (apiRun cfg framework settings steps).withoutForeign settings ∧
    (∀ answer ∈ (apiRun cfg framework settings steps).answered, answer.1.Foreign settings →
      ∀ now outcome, answer.2 =
        (serve framework settings answer.1 now outcome DebugWeb.empty).1) ∧
    (∀ req, checkAuth settings.authToken req.authorization = false → ¬ req.Foreign settings →
      ∀ now outcome web, req.urlPath = "/healthz" ∧ req.path ≠ "/healthz" ∧
        serve framework settings req now outcome web =
          securityMiddleware (route framework settings req now outcome) web) ∧
    ∀ answer ∈ (apiRun cfg framework settings steps).answered, ∀ header ∈ securityHeaders,
      lower header.1 ∈ answer.2.headers.keys := by
  refine ⟨web_apiRun steps, apiRun_filter steps, fun answer hanswer hforeign now outcome => ?_,
    fun _ hauth hforeign => serve_of_disguised hauth hforeign,
    fun answer hanswer header hheader => ?_⟩
  · obtain ⟨now', outcome', web, heq⟩ := mem_answered hanswer
    rw [heq]
    exact serve_of_foreign hforeign now' now outcome' outcome web DebugWeb.empty
  · obtain ⟨now, outcome, web, heq⟩ := mem_answered hanswer
    rw [heq]
    exact headers_serve answer.1 now outcome web hheader

end SvcLbMux
