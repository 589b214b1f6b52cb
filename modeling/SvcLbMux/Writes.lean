import SvcLbMux.Requests
import SvcLbMux.Settling

namespace SvcLbMux

open Py

/-! ## What the requests do -/
section Apply

variable (cfg : Config)

theorem admitted_patchPorts {c : Channel} (h : c.Admitted) (text : String) :
    (c.patchPorts cfg text).Admitted :=
  ⟨h.namespace_, h.name, h.ports, h.names⟩

def patchedChannel (key : String × String) (text : String) (c : Channel) : Channel :=
  if c.key = key then c.patchPorts cfg text else c

theorem key_patchedChannel (key : String × String) (text : String) (c : Channel) :
    (patchedChannel cfg key text c).key = c.key := by
  unfold patchedChannel
  split_ifs <;> rfl

def Cluster.patchChannel (cluster : Cluster) (key : String × String) (text : String) : Cluster :=
  { cluster with
    channels := cluster.channels.map (patchedChannel cfg key text)
    admitted := by
      simp only [List.forall_mem_map]
      intro c hc
      unfold patchedChannel
      split_ifs
      · exact admitted_patchPorts cfg (cluster.admitted c hc) text
      · exact cluster.admitted c hc
    distinct := by
      rw [List.map_map]
      exact (List.map_congr_left fun c _ => key_patchedChannel cfg key text c) ▸ cluster.distinct }

def DesiredEndpoints.created (desired : DesiredEndpoints) : Endpoints :=
  ⟨desired.labels, desired.annotations, some desired.subsets⟩

def Cluster.apply (cluster : Cluster) : Request → Cluster
  | .event _ _ _ => cluster
  | .patchChannelPorts key text => cluster.patchChannel cfg key text
  | .patchChannelStatus key statusLb =>
    { cluster with
      channelStatus := cluster.channelStatus.write
        (key, LoadBalancer.mergePatch (cluster.channelStatus.get key) statusLb) }
  | .saveConfigmap store _ state => { cluster with configmap := some (store.save state) }
  | .patchMuxAnnotations patch =>
    { cluster with mux.annotations := cluster.mux.annotations.mergePatch patch }
  | .patchMuxPorts muxPorts =>
    { cluster with mux.ports := muxPorts.map fun m => ⟨some m.name, m.port, some m.protocol⟩ }
  | .patchEndpoints desired => { cluster with endpoints := cluster.endpoints.map desired.patched }
  | .createEndpoints desired => { cluster with endpoints := some desired.created }

def Cluster.applyAll (cluster : Cluster) (requests : List Request) : Cluster :=
  requests.foldl (Cluster.apply cfg) cluster

theorem Cluster.applyAll_append (cluster : Cluster) (requests requests' : List Request) :
    cluster.applyAll cfg (requests ++ requests') =
      (cluster.applyAll cfg requests).applyAll cfg requests' := List.foldl_append

theorem Cluster.applyAll_invariant {cluster : Cluster} {requests : List Request}
    (P : Cluster → Prop) (h : P cluster)
    (hstep : ∀ cluster, ∀ request ∈ requests, P cluster → P (cluster.apply cfg request)) :
    P (cluster.applyAll cfg requests) := by
  induction requests generalizing cluster with
  | nil => exact h
  | cons request requests ih =>
    exact ih (hstep cluster request (by simp) h)
      fun cluster request hmem => hstep cluster request (List.mem_cons_of_mem _ hmem)

end Apply

/-! ## Why an iteration writes -/

section Causes

variable {cfg : Config} {s : Surroundings} {cluster : Cluster}

def turnRequests (cfg : Config) (s : Surroundings) (cluster : Cluster)
    (report : Channel × Outcome) : List Request :=
  match report.2 with
  | .rejected rejection => [.event report.1.key "Error" rejection.event]
  | .accepted resolved =>
    updateChannelServiceMetadata cfg s cluster report.1 (portsAnnotationOf resolved)

theorem emitted_channelTurn {maxPorts : Option Int} {state state' : IterationState} {c : Channel}
    {outcome : Outcome}
    (h : (channelTurn cfg s cluster maxPorts state c).outcome = .ok (state', outcome)) :
    (channelTurn cfg s cluster maxPorts state c).emitted = turnRequests cfg s cluster (c, outcome) := by
  obtain ⟨⟨loop, outcome'⟩, -, hrest, hemitted⟩ := Emission.eq_of_bind_ok h
  rw [channelTurn, hemitted, Emission.emitted_attempt, List.nil_append]
  cases outcome' with
  | rejected rejection =>
    obtain ⟨-, rfl⟩ := Prod.mk.inj (Except.ok.inj hrest)
    rfl
  | accepted resolved =>
    obtain ⟨_, -, hcollected, hemitted₁⟩ := Emission.eq_of_bind_ok hrest
    obtain ⟨chEndpoints, -, hpure, hemitted₂⟩ := Emission.eq_of_bind_ok hcollected
    obtain ⟨-, rfl⟩ := Prod.mk.inj (Except.ok.inj hpure)
    dsimp only
    rw [hemitted₁, hemitted₂, Emission.emitted_emit, Emission.emitted_attempt, Emission.emitted_pure,
      List.append_nil, List.append_nil]
    rfl

theorem write_of_mem_channelTurn {maxPorts : Option Int} {state : IterationState} {c : Channel}
    {request : Request} (hwrites : request.writes = true)
    (h : request ∈ (channelTurn cfg s cluster maxPorts state c).emitted) :
    ∃ t' resolved, channelStep cfg (cluster.mux.namespace_, cluster.mux.name) maxPorts state.loop c =
        .ok (t', .accepted resolved) ∧
      request ∈ updateChannelServiceMetadata cfg s cluster c (portsAnnotationOf resolved) := by
  rw [channelTurn, Emission.mem_bind] at h
  obtain h | ⟨⟨t', outcome⟩, hstep, h⟩ := h
  · simp at h
  cases outcome with
  | rejected rejection =>
    rw [Emission.mem_bind] at h
    obtain h | ⟨_, -, h⟩ := h
    · obtain rfl := List.mem_singleton.mp h
      cases hwrites
    · simp at h
  | accepted resolved =>
    rw [Emission.mem_bind] at h
    obtain h | ⟨_, -, h⟩ := h
    · exact ⟨t', resolved, hstep, h⟩
    · simp [Emission.mem_bind] at h

theorem mem_unlessDryrun {requests : List Request} {request : Request} :
    request ∈ unlessDryrun s requests ↔ s.dryrunMode = false ∧ request ∈ requests := by
  unfold unlessDryrun
  cases s.dryrunMode <;> simp

inductive Caused (cfg : Config) (s : Surroundings) (cluster : Cluster) : Request → Prop
  | channelPorts {c : Channel} {t t' : LoopState} {resolved : List ResolvedPort}
      (meets : PassMeets cfg (cluster.passInput s) c t)
      (step : channelStep cfg (cluster.mux.namespace_, cluster.mux.name)
        (muxPortLimit cfg cluster.mux).1 t c = .ok (t', .accepted resolved))
      (changed : c.annotations.get cfg.annotationPorts ≠ some (portsAnnotationOf resolved)) :
      Caused cfg s cluster (.patchChannelPorts c.key (portsAnnotationOf resolved))
  | channelStatus {c : Channel} {t t' : LoopState} {resolved : List ResolvedPort}
      (meets : PassMeets cfg (cluster.passInput s) c t)
      (step : channelStep cfg (cluster.mux.namespace_, cluster.mux.name)
        (muxPortLimit cfg cluster.mux).1 t c = .ok (t', .accepted resolved))
      (changed : some (channelLoadBalancer cluster c) ≠ s.statusLb) :
      Caused cfg s cluster (.patchChannelStatus c.key s.statusLb)
  | configmap {p : PassResult} {store : ConfigMapAllocationStore} {state : StateDoc} (create : Bool)
      (pass : muxPass cfg (cluster.passInput s) = .ok p)
      (own : store = muxStore cfg cluster.mux)
      (saved : p.configmap = some (store.save state)) :
      Caused cfg s cluster (.saveConfigmap store create state)
  | muxAnnotations {p : PassResult} {texts : GeneratedTexts} {patch : Dict String (Option String)}
      (pass : muxPass cfg (cluster.passInput s) = .ok p)
      (changed : muxPatch cluster.mux.annotations (desiredMuxAnnotations cfg cluster.mux.annotations
        (aggregateExternalDnsAnnotations cfg (sortChannels (cluster.passInput s).channels)) texts) =
          some patch) :
      Caused cfg s cluster (.patchMuxAnnotations patch)
  | muxPorts {p : PassResult} (pass : muxPass cfg (cluster.passInput s) = .ok p) :
      Caused cfg s cluster (.patchMuxPorts (s.order.toList p.muxPorts))
  | patchEndpoints {desired : DesiredEndpoints} (exist : cluster.endpoints ≠ none) :
      Caused cfg s cluster (.patchEndpoints desired)
  | createEndpoints {desired : DesiredEndpoints} (absent : cluster.endpoints = none) :
      Caused cfg s cluster (.createEndpoints desired)

theorem muxPass_of_run {start : PassStart} {final : LoopState} {reports : List (Channel × Outcome)}
    {input : PassInput} (hstart : passStart cfg input = .ok start)
    (hrun : Loop.run (channelStep cfg (input.mux.namespace_, input.mux.name) start.maxPorts)
      (sortChannels input.channels) start.loop = .ok (final, reports)) :
    muxPass cfg input = .ok ⟨final, reports, buildMuxPorts final.ports,
      savedConfigmap start.store final.muxState input.configmap, start.events⟩ := by
  rw [muxPass, hstart]
  dsimp only
  rw [hrun]

theorem passStart_of_iterationStart {input : PassInput} {oldPorts : Finset MuxPort}
    {start : PassStart} (h : (iterationStart cfg input).outcome = .ok (oldPorts, start)) :
    oldMuxPorts input.mux.ports = .ok oldPorts ∧ passStart cfg input = .ok start := by
  rw [outcome_iterationStart] at h
  cases hports : oldMuxPorts input.mux.ports with
  | error e => simp [hports] at h
  | ok ports =>
    cases hstart : passStart cfg input with
    | error e => simp [hports, hstart, Except.map] at h
    | ok started =>
      simp only [hports, hstart, Except.map, Except.ok.injEq, Prod.mk.injEq] at h
      exact ⟨congrArg _ h.1, congrArg _ h.2⟩

theorem writes_iterationStart {input : PassInput} {request : Request}
    (h : request ∈ (iterationStart cfg input).emitted) : request.writes = false := by
  unfold iterationStart at h
  simp only [Emission.mem_bind, Emission.emitted_attempt, Emission.emitted_emit,
    Emission.emitted_pure, List.not_mem_nil, List.mem_map, false_or, or_false, and_false,
    exists_false] at h
  obtain ⟨-, -, ⟨event, -, rfl⟩ | ⟨-, -, -, -, ⟨event, -, rfl⟩ | ⟨-, -, -, -, event, -, rfl⟩⟩⟩ := h
  · rfl
  · rfl
  · rfl

theorem muxPass_of_loop {start : PassStart} {final : IterationState}
    {reports : List (Channel × Outcome)} (hstart : passStart cfg (cluster.passInput s) = .ok start)
    (hloop : (Emission.loop (channelTurn cfg s cluster start.maxPorts)
      (sortChannels (cluster.passInput s).channels) ⟨start.loop, []⟩).outcome = .ok (final, reports)) :
    muxPass cfg (cluster.passInput s) = .ok ⟨final.loop, reports, buildMuxPorts final.loop.ports,
      savedConfigmap start.store final.loop.muxState cluster.configmap, start.events⟩ := by
  rw [Emission.outcome_loop] at hloop
  simp only [outcome_channelTurn] at hloop
  exact muxPass_of_run hstart (Loop.run_image IterationState.loop
    (fun _ _ _ _ => channelStep_of_iterationStep) hloop)

theorem caused_of_mem_loop {start : PassStart}
    (hstart : passStart cfg (cluster.passInput s) = .ok start) {request : Request}
    (hwrites : request.writes = true)
    (h : request ∈ (Emission.loop (channelTurn cfg s cluster start.maxPorts)
      (sortChannels (cluster.passInput s).channels) ⟨start.loop, []⟩).emitted) :
    s.dryrunMode = false ∧ Caused cfg s cluster request := by
  obtain ⟨c, state, ⟨before, after, log, hsplit, hrun⟩, hmem⟩ := Emission.mem_loop.mp h
  simp only [outcome_channelTurn] at hrun
  have hmeets : PassMeets cfg (cluster.passInput s) c state.loop :=
    ⟨start, hstart, before, after, log, hsplit, Loop.run_image IterationState.loop
      (fun _ _ _ _ => channelStep_of_iterationStep) hrun⟩
  obtain ⟨e, he⟩ := started_of_passStart hstart
  obtain ⟨t', resolved, hstep, hmem⟩ := write_of_mem_channelTurn hwrites hmem
  rw [he.maxPorts] at hstep
  obtain ⟨hdryrun, hmem⟩ := mem_unlessDryrun.mp hmem
  refine ⟨hdryrun, ?_⟩
  rcases List.mem_append.mp hmem with hmem | hmem
  · split_ifs at hmem with hchanged
    · obtain rfl := List.mem_singleton.mp hmem
      exact .channelPorts hmeets hstep hchanged
    · cases hmem
  · split_ifs at hmem with hchanged
    · obtain rfl := List.mem_singleton.mp hmem
      exact .channelStatus hmeets hstep hchanged
    · cases hmem

theorem store_of_passStart {start : PassStart}
    (hstart : passStart cfg (cluster.passInput s) = .ok start) :
    ∀ store, start.store = some store → store = muxStore cfg cluster.mux := by
  intro store hstore
  obtain ⟨e, he⟩ := started_of_passStart hstart
  obtain ⟨-, -, -, hnone⟩ | ⟨-, -, hsome⟩ := he.loaded
  · exact nomatch hstore.symm.trans hnone
  · exact Option.some.inj (hstore.symm.trans hsome)

theorem caused_of_mem_finish {oldPorts : Finset MuxPort} {start : PassStart}
    {final : IterationState} {reports : List (Channel × Outcome)} {request : Request}
    (hpass : muxPass cfg (cluster.passInput s) = .ok ⟨final.loop, reports,
      buildMuxPorts final.loop.ports,
      savedConfigmap start.store final.loop.muxState cluster.configmap, start.events⟩)
    (hown : ∀ store, start.store = some store → store = muxStore cfg cluster.mux)
    (hwrites : request.writes = true)
    (h : request ∈ (finishIteration cfg s cluster oldPorts start final reports).emitted) :
    s.dryrunMode = false ∧ Caused cfg s cluster request := by
  rw [finishIteration, Emission.mem_bind, Emission.emitted_emit] at h
  obtain h | ⟨_, -, h⟩ := h
  · unfold saveRequests at h
    cases hstore : start.store with
    | none => simp [hstore] at h
    | some store =>
      simp only [hstore] at h
      split_ifs at h with hsaved
      · obtain ⟨hdryrun, h⟩ := mem_unlessDryrun.mp h
        obtain rfl := List.mem_singleton.mp h
        refine ⟨hdryrun, .configmap _ hpass (hown store hstore) ?_⟩
        simp only [savedConfigmap, hstore]
        exact if_pos hsaved
      · cases h
  rw [Emission.mem_bind, Emission.emitted_attempt] at h
  obtain ⟨topology, -, h⟩ := h.resolve_left List.not_mem_nil
  rw [Emission.mem_bind, Emission.emitted_attempt] at h
  obtain ⟨texts, -, h⟩ := h.resolve_left List.not_mem_nil
  rw [Emission.mem_bind, Emission.emitted_emit] at h
  obtain h | ⟨_, -, h⟩ := h
  · obtain ⟨conflict, -, rfl⟩ := List.mem_map.mp h
    cases hwrites
  dsimp only at h
  rw [Emission.mem_bind, Emission.emitted_emit] at h
  obtain h | ⟨_, -, h⟩ := h
  · unfold muxAnnotationsRequests at h
    split at h
    · cases h
    · rename_i patch hpatch
      obtain ⟨hdryrun, h⟩ := mem_unlessDryrun.mp h
      rcases List.mem_pair.mp h with rfl | rfl
      · exact ⟨hdryrun, .muxAnnotations hpass hpatch⟩
      · cases hwrites
  rw [Emission.mem_bind, Emission.emitted_emit] at h
  obtain h | ⟨_, -, h⟩ := h
  · unfold muxPortsRequests at h
    split_ifs at h
    · obtain ⟨hdryrun, h⟩ := mem_unlessDryrun.mp h
      rcases List.mem_pair.mp h with rfl | rfl
      · cases hwrites
      · exact ⟨hdryrun, .muxPorts hpass⟩
    · cases h
  rw [Emission.mem_bind, Emission.emitted_emit] at h
  obtain h | ⟨_, -, h⟩ := h
  · unfold endpointsRequests at h
    cases hlive : cluster.endpoints with
    | some live =>
      simp only [hlive] at h
      split_ifs at h
      · obtain ⟨hdryrun, h⟩ := mem_unlessDryrun.mp h
        rcases List.mem_pair.mp h with rfl | rfl
        · cases hwrites
        · exact ⟨hdryrun, .patchEndpoints (by simp [hlive])⟩
      · cases h
    | none =>
      simp only [hlive] at h
      obtain ⟨hdryrun, h⟩ := mem_unlessDryrun.mp h
      rcases List.mem_pair.mp h with rfl | rfl
      · cases hwrites
      · exact ⟨hdryrun, .createEndpoints hlive⟩
  · simp at h

/-- Every write of an iteration has a cause, also when the iteration raises after it. -/
theorem caused_of_mem {request : Request} (hwrites : request.writes = true)
    (h : request ∈ (iteration cfg s cluster).emitted) :
    s.dryrunMode = false ∧ Caused cfg s cluster request := by
  rw [iteration, Emission.mem_bind, Emission.emitted_attempt] at h
  obtain ⟨_, -, h⟩ := h.resolve_left List.not_mem_nil
  rw [Emission.mem_bind] at h
  obtain h | ⟨⟨oldPorts, start⟩, hstart, h⟩ := h
  · rw [writes_iterationStart h] at hwrites
    cases hwrites
  obtain ⟨-, hstart⟩ := passStart_of_iterationStart hstart
  rw [Emission.mem_bind] at h
  obtain h | ⟨⟨final, reports⟩, hloop, h⟩ := h
  · exact caused_of_mem_loop hstart hwrites h
  · exact caused_of_mem_finish (muxPass_of_loop hstart hloop) (store_of_passStart hstart) hwrites h

theorem emitted_finishIteration {oldPorts : Finset MuxPort} {start : PassStart}
    {final : IterationState} {reports : List (Channel × Outcome)} {out : PassOutputs}
    (h : (finishIteration cfg s cluster oldPorts start final reports).outcome = .ok out) :
    ∃ texts, generatedTexts cfg s.display s.memoEndpoints (cluster.passInput s).channels
        final.loop.ports.card = .ok texts ∧
      (finishIteration cfg s cluster oldPorts start final reports).emitted =
        saveRequests s start.store final.loop.muxState cluster.configmap ++
        (conflictEvents cfg cluster.mux (cluster.passInput s).channels ++
        (muxAnnotationsRequests s cluster.mux out.muxAnnotations texts.summary ++
        (muxPortsRequests s (cluster.mux.namespace_, cluster.mux.name) oldPorts
            (buildMuxPorts final.loop.ports) ++
          endpointsRequests s (cluster.mux.namespace_, cluster.mux.name) cluster.endpoints
            (.ofPass cfg s.muxLabels (cluster.mux.namespace_, cluster.mux.name)
              (cluster.passInput s).channels final.endpoints)))) := by
  obtain ⟨_, -, h₁, e₁⟩ := Emission.eq_of_bind_ok h
  obtain ⟨topology, -, h₂, e₂⟩ := Emission.eq_of_bind_ok h₁
  obtain ⟨texts, htexts, h₃, e₃⟩ := Emission.eq_of_bind_ok h₂
  refine ⟨texts, ?_, ?_⟩
  · rw [Emission.outcome_attempt] at htexts
    cases hgenerated : generatedTexts cfg s.display s.memoEndpoints (cluster.passInput s).channels
        final.loop.ports.card with
    | error e => simp [hgenerated, Except.mapError] at htexts
    | ok texts' =>
      simp only [hgenerated, Except.mapError, Except.ok.injEq] at htexts
      rw [htexts]
  obtain ⟨_, -, h₄, e₄⟩ := Emission.eq_of_bind_ok h₃
  obtain ⟨_, -, h₅, e₅⟩ := Emission.eq_of_bind_ok h₄
  obtain ⟨_, -, h₆, e₆⟩ := Emission.eq_of_bind_ok h₅
  obtain ⟨_, -, h₇, e₇⟩ := Emission.eq_of_bind_ok h₆
  obtain rfl := Except.ok.inj h₇
  rw [finishIteration, e₁, e₂, e₃, e₄, e₅, e₆, e₇]
  simp only [Emission.emitted_attempt, Emission.emitted_emit, Emission.emitted_pure,
    List.nil_append, List.append_nil]
  rfl

theorem emitted_iteration {out : PassOutputs} (h : (iteration cfg s cluster).outcome = .ok out) :
    ∃ oldPorts start texts, oldMuxPorts cluster.mux.ports = .ok oldPorts ∧
      passStart cfg (cluster.passInput s) = .ok start ∧
      generatedTexts cfg s.display s.memoEndpoints (cluster.passInput s).channels
        out.result.final.ports.card = .ok texts ∧
      out.muxAnnotations = desiredMuxAnnotations cfg cluster.mux.annotations
        (aggregateExternalDnsAnnotations cfg (sortChannels (cluster.passInput s).channels)) texts ∧
      (iteration cfg s cluster).emitted =
        (iterationStart cfg (cluster.passInput s)).emitted ++
        (out.result.reports.flatMap (turnRequests cfg s cluster) ++
        (saveRequests s start.store out.result.final.muxState cluster.configmap ++
        (conflictEvents cfg cluster.mux (cluster.passInput s).channels ++
        (muxAnnotationsRequests s cluster.mux out.muxAnnotations texts.summary ++
        (muxPortsRequests s (cluster.mux.namespace_, cluster.mux.name) oldPorts out.result.muxPorts ++
          endpointsRequests s (cluster.mux.namespace_, cluster.mux.name) cluster.endpoints
            (.ofPass cfg s.muxLabels (cluster.mux.namespace_, cluster.mux.name)
              (cluster.passInput s).channels out.result.endpoints)))))) := by
  obtain ⟨_, -, h₁, e₁⟩ := Emission.eq_of_bind_ok h
  obtain ⟨⟨oldPorts, start⟩, hstart, h₂, e₂⟩ := Emission.eq_of_bind_ok h₁
  obtain ⟨⟨final, reports⟩, hloop, h₃, e₃⟩ := Emission.eq_of_bind_ok h₂
  have hturns := Emission.emitted_loop (turnRequests cfg s cluster)
    (fun _ _ _ _ => emitted_channelTurn) hloop
  obtain ⟨texts, htexts, hfinish⟩ := emitted_finishIteration h₃
  obtain ⟨hports, hstart'⟩ := passStart_of_iterationStart hstart
  rw [outcome_finishIteration] at h₃
  cases htopology : topologyMappings cfg (cluster.passInput s).channels with
  | error e => simp [htopology] at h₃
  | ok topology =>
    simp only [htopology, htexts, Except.ok.injEq] at h₃
    subst h₃
    refine ⟨oldPorts, start, texts, hports, hstart', htexts, rfl, ?_⟩
    rw [iteration, e₁, e₂, e₃, hturns, hfinish, Emission.emitted_attempt, List.nil_append]

theorem pass_of_iteration {out : PassOutputs} (h : (iteration cfg s cluster).outcome = .ok out) :
    muxPass cfg (cluster.passInput s) = .ok out.result.toPassResult := by
  rw [outcome_iteration] at h
  obtain ⟨hiteration, -⟩ := passOutputs_eq_ok h
  obtain ⟨-, hreconcile⟩ := daemonIteration_eq_ok_iff.mp hiteration
  obtain ⟨-, -, -, -, -, -, hpass⟩ := reconcileChannels_eq_ok hreconcile
  exact hpass

end Causes


/-! ## The parts that requests concern -/

inductive Part where
  | event
  | channels
  | channelStatus
  | configmap
  | muxAnnotations
  | muxPorts
  | endpoints
deriving DecidableEq

def Request.part : Request → Part
  | .event _ _ _ => .event
  | .patchChannelPorts _ _ => .channels
  | .patchChannelStatus _ _ => .channelStatus
  | .saveConfigmap _ _ _ => .configmap
  | .patchMuxAnnotations _ => .muxAnnotations
  | .patchMuxPorts _ => .muxPorts
  | .patchEndpoints _ => .endpoints
  | .createEndpoints _ => .endpoints

def requestsTo (part : Part) (requests : List Request) : List Request :=
  requests.filter fun request => request.part = part

theorem requestsTo_append (part : Part) (requests requests' : List Request) :
    requestsTo part (requests ++ requests') = requestsTo part requests ++ requestsTo part requests' :=
  List.filter_append ..

theorem requestsTo_eq_nil {part : Part} {requests : List Request}
    (h : ∀ request ∈ requests, request.part ≠ part) : requestsTo part requests = [] := by
  unfold requestsTo
  rw [List.filter_eq_nil_iff]
  intro request hrequest
  rw [decide_eq_true_eq]
  exact h request hrequest

theorem requestsTo_eq_self {part : Part} {requests : List Request}
    (h : ∀ request ∈ requests, request.part = part) : requestsTo part requests = requests := by
  unfold requestsTo
  rw [List.filter_eq_self]
  intro request hrequest
  rw [decide_eq_true_eq]
  exact h request hrequest

def Request.onChannels (cfg : Config) (channels : List Channel) : Request → List Channel
  | .patchChannelPorts key text => channels.map (patchedChannel cfg key text)
  | _ => channels

section Parts

variable (cfg : Config) (cluster : Cluster) (requests : List Request)

theorem channels_applyAll :
    (cluster.applyAll cfg requests).channels =
      (requestsTo .channels requests).foldl (Request.onChannels cfg) cluster.channels := by
  refine Loop.foldl_component Cluster.channels _ _ (fun cluster request _ => ?_)
    (fun cluster request h => ?_) requests cluster
  · cases request <;> rfl
  · cases request <;> first | rfl | simp [Request.part] at h

theorem configmap_applyAll :
    (cluster.applyAll cfg requests).configmap =
      (requestsTo .configmap requests).foldl (fun configmap request => match request with
        | .saveConfigmap store _ state => some (store.save state)
        | _ => configmap) cluster.configmap := by
  refine Loop.foldl_component Cluster.configmap _ _ (fun cluster request _ => ?_)
    (fun cluster request h => ?_) requests cluster
  · cases request <;> rfl
  · cases request <;> first | rfl | simp [Request.part] at h

theorem muxAnnotations_applyAll :
    (cluster.applyAll cfg requests).mux.annotations =
      (requestsTo .muxAnnotations requests).foldl (fun annotations request => match request with
        | .patchMuxAnnotations patch => annotations.mergePatch patch
        | _ => annotations) cluster.mux.annotations := by
  refine Loop.foldl_component (fun cluster : Cluster => cluster.mux.annotations) _ _
    (fun cluster request _ => ?_) (fun cluster request h => ?_) requests cluster
  · cases request <;> rfl
  · cases request <;> first | rfl | simp [Request.part] at h

theorem muxPorts_applyAll :
    (cluster.applyAll cfg requests).mux.ports =
      (requestsTo .muxPorts requests).foldl (fun ports request => match request with
        | .patchMuxPorts muxPorts => muxPorts.map fun m => ⟨some m.name, m.port, some m.protocol⟩
        | _ => ports) cluster.mux.ports := by
  refine Loop.foldl_component (fun cluster : Cluster => cluster.mux.ports) _ _
    (fun cluster request _ => ?_) (fun cluster request h => ?_) requests cluster
  · cases request <;> rfl
  · cases request <;> first | rfl | simp [Request.part] at h

theorem endpoints_applyAll :
    (cluster.applyAll cfg requests).endpoints =
      (requestsTo .endpoints requests).foldl (fun endpoints request => match request with
        | .patchEndpoints desired => endpoints.map desired.patched
        | .createEndpoints desired => some desired.created
        | _ => endpoints) cluster.endpoints := by
  refine Loop.foldl_component Cluster.endpoints _ _ (fun cluster request _ => ?_)
    (fun cluster request h => ?_) requests cluster
  · cases request <;> rfl
  · cases request <;> first | rfl | simp [Request.part] at h

theorem mux_applyAll :
    (cluster.applyAll cfg requests).mux = { cluster.mux with
      annotations := (cluster.applyAll cfg requests).mux.annotations
      ports := (cluster.applyAll cfg requests).mux.ports } := by
  refine Cluster.applyAll_invariant cfg (fun c => c.mux = { cluster.mux with
    annotations := c.mux.annotations
    ports := c.mux.ports }) rfl fun c request _ h => ?_
  cases request <;> first | exact h | (simp only [Cluster.apply]; rw [h])

end Parts

/-! ## What an iteration that ends leaves -/

section Segments

variable {cfg : Config} {s : Surroundings} {cluster : Cluster} {request : Request}

theorem requestsTo_eq_nil_of_parts {part : Part} {requests : List Request} (parts : List Part)
    (h : ∀ request ∈ requests, request.part ∈ parts) (hpart : part ∉ parts) :
    requestsTo part requests = [] :=
  requestsTo_eq_nil fun request hrequest heq => hpart (heq ▸ h request hrequest)

theorem part_iterationStart {input : PassInput}
    (h : request ∈ (iterationStart cfg input).emitted) : request.part ∈ [Part.event] := by
  have hwrites := writes_iterationStart h
  cases request <;> first | exact List.mem_singleton.mpr rfl | cases hwrites

theorem part_turnRequests {reports : List (Channel × Outcome)}
    (h : request ∈ reports.flatMap (turnRequests cfg s cluster)) :
    request.part ∈ [Part.event, .channels, .channelStatus] := by
  obtain ⟨⟨c, outcome⟩, -, h⟩ := List.mem_flatMap.mp h
  cases outcome with
  | rejected rejection =>
    obtain rfl := List.mem_singleton.mp h
    simp [Request.part]
  | accepted resolved =>
    rcases List.mem_append.mp (mem_unlessDryrun.mp h).2 with h | h
    all_goals
      split_ifs at h
      · obtain rfl := List.mem_singleton.mp h
        simp [Request.part]
      · cases h

theorem part_saveRequests {store : Option ConfigMapAllocationStore} {muxState : MuxState}
    {configmap : Option ConfigMap} (h : request ∈ saveRequests s store muxState configmap) :
    request.part ∈ [Part.configmap] := by
  unfold saveRequests at h
  split at h
  · cases h
  · split_ifs at h
    · obtain rfl := List.mem_singleton.mp (mem_unlessDryrun.mp h).2
      exact List.mem_singleton.mpr rfl
    · cases h

theorem part_conflictEvents {mux : MuxService} {channels : List Channel}
    (h : request ∈ conflictEvents cfg mux channels) : request.part ∈ [Part.event] := by
  obtain ⟨conflict, -, rfl⟩ := List.mem_map.mp h
  exact List.mem_singleton.mpr rfl

theorem part_muxAnnotationsRequests {mux : MuxService} {desired : Dict String String}
    {summary : String} (h : request ∈ muxAnnotationsRequests s mux desired summary) :
    request.part ∈ [Part.muxAnnotations, .event] := by
  unfold muxAnnotationsRequests at h
  split at h
  · cases h
  · rcases List.mem_pair.mp (mem_unlessDryrun.mp h).2 with rfl | rfl
    · exact List.mem_pair.mpr (Or.inl rfl)
    · exact List.mem_pair.mpr (Or.inr rfl)

theorem part_muxPortsRequests {muxKey : String × String} {oldPorts muxPorts : Finset MuxPort}
    (h : request ∈ muxPortsRequests s muxKey oldPorts muxPorts) :
    request.part ∈ [Part.event, .muxPorts] := by
  unfold muxPortsRequests at h
  split_ifs at h
  · rcases List.mem_pair.mp (mem_unlessDryrun.mp h).2 with rfl | rfl
    · exact List.mem_pair.mpr (Or.inl rfl)
    · exact List.mem_pair.mpr (Or.inr rfl)
  · cases h

theorem part_endpointsRequests {muxKey : String × String} {live : Option Endpoints}
    {desired : DesiredEndpoints} (h : request ∈ endpointsRequests s muxKey live desired) :
    request.part ∈ [Part.event, .endpoints] := by
  unfold endpointsRequests at h
  cases live with
  | some live =>
    dsimp only at h
    split_ifs at h
    · rcases List.mem_pair.mp (mem_unlessDryrun.mp h).2 with rfl | rfl
      · exact List.mem_pair.mpr (Or.inl rfl)
      · exact List.mem_pair.mpr (Or.inr rfl)
    · cases h
  | none =>
    rcases List.mem_pair.mp (mem_unlessDryrun.mp h).2 with rfl | rfl
    · exact List.mem_pair.mpr (Or.inl rfl)
    · exact List.mem_pair.mpr (Or.inr rfl)

theorem requestsTo_iteration {out : PassOutputs}
    (h : (iteration cfg s cluster).outcome = .ok out) :
    ∃ oldPorts start texts, oldMuxPorts cluster.mux.ports = .ok oldPorts ∧
      passStart cfg (cluster.passInput s) = .ok start ∧
      generatedTexts cfg s.display s.memoEndpoints (cluster.passInput s).channels
        out.result.final.ports.card = .ok texts ∧
      out.muxAnnotations = desiredMuxAnnotations cfg cluster.mux.annotations
        (aggregateExternalDnsAnnotations cfg (sortChannels (cluster.passInput s).channels)) texts ∧
      requestsTo .channels (iteration cfg s cluster).emitted =
        requestsTo .channels (out.result.reports.flatMap (turnRequests cfg s cluster)) ∧
      requestsTo .channelStatus (iteration cfg s cluster).emitted =
        requestsTo .channelStatus (out.result.reports.flatMap (turnRequests cfg s cluster)) ∧
      requestsTo .configmap (iteration cfg s cluster).emitted =
        saveRequests s start.store out.result.final.muxState cluster.configmap ∧
      requestsTo .muxAnnotations (iteration cfg s cluster).emitted =
        requestsTo .muxAnnotations
          (muxAnnotationsRequests s cluster.mux out.muxAnnotations texts.summary) ∧
      requestsTo .muxPorts (iteration cfg s cluster).emitted =
        requestsTo .muxPorts (muxPortsRequests s (cluster.mux.namespace_, cluster.mux.name) oldPorts
          out.result.muxPorts) ∧
      requestsTo .endpoints (iteration cfg s cluster).emitted =
        requestsTo .endpoints (endpointsRequests s (cluster.mux.namespace_, cluster.mux.name)
          cluster.endpoints (.ofPass cfg s.muxLabels (cluster.mux.namespace_, cluster.mux.name)
            (cluster.passInput s).channels out.result.endpoints)) := by
  obtain ⟨oldPorts, start, texts, hports, hstart, htexts, hannotations, hemitted⟩ :=
    emitted_iteration h
  refine ⟨oldPorts, start, texts, hports, hstart, htexts, hannotations, ?_⟩
  have hbefore : ∀ part, part ≠ .event →
      requestsTo part (iterationStart cfg (cluster.passInput s)).emitted = [] := fun part hpart =>
    requestsTo_eq_nil_of_parts _ (fun _ => part_iterationStart) (by simpa using hpart)
  have hturns : ∀ part, part ∉ [Part.event, .channels, .channelStatus] →
      requestsTo part (out.result.reports.flatMap (turnRequests cfg s cluster)) = [] := fun part =>
    requestsTo_eq_nil_of_parts _ fun _ => part_turnRequests
  have hsave : ∀ part, part ≠ .configmap →
      requestsTo part (saveRequests s start.store out.result.final.muxState cluster.configmap) =
        [] := fun part hpart =>
    requestsTo_eq_nil_of_parts _ (fun _ => part_saveRequests) (by simpa using hpart)
  have hsaved : requestsTo .configmap
      (saveRequests s start.store out.result.final.muxState cluster.configmap) = _ :=
    requestsTo_eq_self fun _ hmem => List.mem_singleton.mp (part_saveRequests hmem)
  have hconflicts : ∀ part, part ≠ .event →
      requestsTo part (conflictEvents cfg cluster.mux (cluster.passInput s).channels) = [] :=
    fun part hpart =>
      requestsTo_eq_nil_of_parts _ (fun _ => part_conflictEvents) (by simpa using hpart)
  have hannotated : ∀ part, part ∉ [Part.muxAnnotations, .event] →
      requestsTo part (muxAnnotationsRequests s cluster.mux out.muxAnnotations texts.summary) = [] :=
    fun part => requestsTo_eq_nil_of_parts _ fun _ => part_muxAnnotationsRequests
  have hmuxPorts : ∀ part, part ∉ [Part.event, .muxPorts] →
      requestsTo part (muxPortsRequests s (cluster.mux.namespace_, cluster.mux.name) oldPorts
        out.result.muxPorts) = [] :=
    fun part => requestsTo_eq_nil_of_parts _ fun _ => part_muxPortsRequests
  have hendpoints : ∀ part, part ∉ [Part.event, .endpoints] →
      requestsTo part (endpointsRequests s (cluster.mux.namespace_, cluster.mux.name)
        cluster.endpoints (.ofPass cfg s.muxLabels (cluster.mux.namespace_, cluster.mux.name)
          (cluster.passInput s).channels out.result.endpoints)) = [] :=
    fun part => requestsTo_eq_nil_of_parts _ fun _ => part_endpointsRequests
  rw [hemitted]
  simp [requestsTo_append, hbefore, hturns, hsave, hsaved, hconflicts, hannotated, hmuxPorts,
    hendpoints]

end Segments

/-! ## The channels after an iteration -/

section Channels

variable {cfg : Config} {s : Surroundings} {cluster : Cluster}

/-- What the turn of one channel does to a channel. -/
def patchedAfter (cfg : Config) (report : Channel × Outcome) (c : Channel) : Channel :=
  match report.2 with
  | .rejected _ => c
  | .accepted resolved =>
    if report.1.annotations.get cfg.annotationPorts ≠ some (portsAnnotationOf resolved) then
      patchedChannel cfg report.1.key (portsAnnotationOf resolved) c
    else c

theorem patchedAfter_of_ne {report : Channel × Outcome} {c : Channel} (h : c.key ≠ report.1.key) :
    patchedAfter cfg report c = c := by
  unfold patchedAfter patchedChannel
  split
  · rfl
  · simp [h]

theorem patchedAfter_self (report : Channel × Outcome) :
    patchedAfter cfg report report.1 = channelAfter cfg report := by
  obtain ⟨c, outcome⟩ := report
  cases outcome with
  | rejected rejection => rfl
  | accepted resolved => simp [patchedAfter, patchedChannel, channelAfter]

theorem foldl_patchedAfter {reports : List (Channel × Outcome)}
    (hnodup : (reports.map fun report => report.1.key).Nodup) {report : Channel × Outcome}
    (hreport : report ∈ reports) :
    reports.foldl (fun c report => patchedAfter cfg report c) report.1 = channelAfter cfg report := by
  have hothers : ∀ (reports : List (Channel × Outcome)) (c : Channel),
      (∀ other ∈ reports, c.key ≠ other.1.key) →
      reports.foldl (fun c report => patchedAfter cfg report c) c = c := by
    intro reports
    induction reports with
    | nil => exact fun _ _ => rfl
    | cons other reports ih =>
      intro c hne
      rw [List.foldl_cons, patchedAfter_of_ne (hne other (by simp))]
      exact ih c fun other' h => hne other' (List.mem_cons_of_mem _ h)
  obtain ⟨before, after, rfl⟩ := List.append_of_mem hreport
  rw [List.map_append, List.map_cons, List.nodup_append, List.nodup_cons] at hnodup
  obtain ⟨-, ⟨hafter, -⟩, hbefore⟩ := hnodup
  rw [List.foldl_append, List.foldl_cons, hothers before, patchedAfter_self, hothers after]
  · intro other hother heq
    rw [key_channelAfter] at heq
    exact hafter (heq ▸ List.mem_map_of_mem hother)
  · intro other hother heq
    exact hbefore _ (List.mem_map_of_mem hother) _ List.mem_cons_self heq.symm

theorem onChannels_turn (hdryrun : s.dryrunMode = false) (report : Channel × Outcome)
    (channels : List Channel) :
    (requestsTo .channels (turnRequests cfg s cluster report)).foldl (Request.onChannels cfg)
        channels = channels.map (patchedAfter cfg report) := by
  obtain ⟨c, outcome⟩ := report
  cases outcome with
  | rejected rejection => exact (List.map_id channels).symm
  | accepted resolved =>
    unfold turnRequests updateChannelServiceMetadata unlessDryrun patchedAfter
    simp only [hdryrun, Bool.false_eq_true, if_false, requestsTo_append]
    split_ifs
    · rfl
    · rfl
    · exact (List.map_id channels).symm
    · exact (List.map_id channels).symm

theorem channels_iteration (hdryrun : s.dryrunMode = false) {out : PassOutputs}
    (h : (iteration cfg s cluster).outcome = .ok out) :
    (cluster.applyAll cfg (iteration cfg s cluster).emitted).channels =
      cluster.channels.map fun c =>
        out.result.reports.foldl (fun c report => patchedAfter cfg report c) c := by
  obtain ⟨-, -, -, -, -, -, -, hturns, -⟩ := requestsTo_iteration h
  rw [channels_applyAll, hturns]
  generalize out.result.reports = reports
  generalize cluster.channels = channels
  induction reports generalizing channels with
  | nil => exact (List.map_id channels).symm
  | cons report reports ih =>
    rw [List.flatMap_cons, requestsTo_append, List.foldl_append, onChannels_turn hdryrun, ih,
      List.map_map]
    rfl

theorem channels_perm_iteration (hdryrun : s.dryrunMode = false) {out : PassOutputs}
    (h : (iteration cfg s cluster).outcome = .ok out) :
    (cluster.applyAll cfg (iteration cfg s cluster).emitted).channels.Perm
      (out.result.reports.map (channelAfter cfg)) := by
  obtain ⟨start, -, hrun, -⟩ := muxPass_eq_ok (pass_of_iteration h)
  have hfirst := Loop.map_fst_run hrun
  have hperm : (out.result.reports.map Prod.fst).Perm cluster.channels :=
    hfirst ▸ (perm_sortBy _ _).trans (s.index.perm _)
  have hnodup : (out.result.reports.map fun report => report.1.key).Nodup := by
    have hkeys := (hperm.map Channel.key).nodup_iff.mpr cluster.distinct
    rwa [List.map_map] at hkeys
  rw [channels_iteration hdryrun h]
  refine (hperm.symm.map _).trans ?_
  rw [List.map_map]
  exact .of_eq (List.map_congr_left fun report hreport => foldl_patchedAfter hnodup hreport)

end Channels

/-! ## The settings of the mux -/

section Settings

variable {cfg : Config}

def settingNames : List String := ["allocation-configmap", "port-range", "max-ports"]

/-- The annotations of a mux that a pass reads as its settings. -/
def settingsKeys (cfg : Config) : List String :=
  settingNames.map cfg.annotationKey ++ gkeProviderAnnotations

def generatedNames : List String := ["channels", "topology", "summary", "aggregated-external-dns"]

theorem annotationKey_ne {name key : String} (h : ¬ name.toList <:+ key.toList) :
    cfg.annotationKey name ≠ key := by
  rintro rfl
  refine h ⟨cfg.apiPrefix.toList ++ ['/'], ?_⟩
  rw [Config.annotationKey, String.toList_append, String.toList_append]
  rfl

theorem foreign_of_settings {annotations : Dict String String} {key : String}
    (h : key ∈ settingsKeys cfg) : Foreign cfg annotations key := by
  have hdns : ∀ name ∈ settingNames, ∀ key ∈ aggregatedExternalDnsAnnotations,
      ¬ name.toList <:+ key.toList := by decide +kernel
  have hgke : ∀ name ∈ generatedNames, ∀ key ∈ gkeProviderAnnotations,
      ¬ name.toList <:+ key.toList := by decide +kernel
  have hnames : ∀ name ∈ settingNames, name ∉ generatedNames := by decide
  have hproviders : ∀ key ∈ gkeProviderAnnotations, key ∉ aggregatedExternalDnsAnnotations := by
    decide +kernel
  refine ⟨fun hgenerated => ?_, fun hkey => ?_⟩
  · obtain ⟨name', hname', heq⟩ : ∃ name ∈ generatedNames, cfg.annotationKey name = key :=
      List.mem_map.mp hgenerated
    rcases List.mem_append.mp h with h | h
    · obtain ⟨name, hname, rfl⟩ := List.mem_map.mp h
      exact hnames name hname (cfg.annotationKey_injective heq ▸ hname')
    · exact annotationKey_ne (hgke name' hname' key h) heq
  · rcases List.mem_append.mp h with h | h
    · obtain ⟨name, hname, rfl⟩ := List.mem_map.mp h
      exact absurd rfl (annotationKey_ne (hdns name hname _ hkey))
    · exact absurd hkey (hproviders key h)

theorem settings_eq {mux mux' : MuxService}
    (hkey : (mux'.namespace_, mux'.name) = (mux.namespace_, mux.name))
    (hclass : mux'.loadBalancerClass = mux.loadBalancerClass)
    (h : ∀ key ∈ settingsKeys cfg, mux'.annotations.get key = mux.annotations.get key) :
    muxStore cfg mux' = muxStore cfg mux ∧ muxPortRanges cfg mux' = muxPortRanges cfg mux ∧
      muxPortLimit cfg mux' = muxPortLimit cfg mux := by
  obtain ⟨hnamespace, hname⟩ := Prod.mk.inj hkey
  have hsetting : ∀ name ∈ settingNames, mux'.annotations.get (cfg.annotationKey name) =
      mux.annotations.get (cfg.annotationKey name) := fun name hmem =>
    h _ (List.mem_append_left _ (List.mem_map_of_mem hmem))
  have hstore : mux'.annotations.get cfg.annotationAllocationConfigmap =
      mux.annotations.get cfg.annotationAllocationConfigmap :=
    hsetting "allocation-configmap" (by decide)
  have hrange : mux'.annotations.get cfg.annotationPortRange =
      mux.annotations.get cfg.annotationPortRange := hsetting "port-range" (by decide)
  have hmax : mux'.annotations.get cfg.annotationMaxPorts =
      mux.annotations.get cfg.annotationMaxPorts := hsetting "max-ports" (by decide)
  have hgke : isGkeLoadBalancerService mux' = isGkeLoadBalancerService mux := by
    have hcontains : ∀ key ∈ gkeProviderAnnotations,
        mux'.annotations.contains key = mux.annotations.contains key := by
      intro key hmem
      rw [Bool.eq_iff_iff, Dict.contains_eq_true, Dict.contains_eq_true, Dict.mem_keys_iff,
        Dict.mem_keys_iff, h key (List.mem_append_right _ hmem)]
    rw [isGkeLoadBalancerService, isGkeLoadBalancerService, hclass, Bool.eq_iff_iff,
      Bool.or_eq_true, Bool.or_eq_true, List.any_eq_true, List.any_eq_true]
    exact or_congr_right (exists_congr fun key => and_congr_right fun hmem => by
      rw [hcontains key hmem])
  refine ⟨?_, ?_, ?_⟩
  · rw [muxStore, muxStore, allocationConfigmapName, allocationConfigmapName, hstore, hnamespace,
      hname]
  · rw [muxPortRanges, muxPortRanges, requestedPortRange, requestedPortRange, hrange]
  · unfold muxPortLimit gkeMaxPortsWarning effectiveMuxMaxPorts requestedMaxPorts
    rw [hgke, hmax]

end Settings

/-! ## The pass after an iteration -/

section Next

variable {cfg : Config} {s : Surroundings} {cluster : Cluster}

/-- The cluster as a pass over admitted channels finds it. -/
def Cluster.admittedPass (cluster : Cluster) (s : Surroundings) : AdmittedPass where
  toPassInput := cluster.passInput s
  admitted c hc := cluster.admitted c ((s.index.perm _).mem_iff.mp hc)
  distinct := ((s.index.perm _).map Channel.key).nodup_iff.mpr cluster.distinct

theorem get_mergePatch_muxPatch {live current aggregated : Dict String String}
    {texts : GeneratedTexts} {patch : Dict String (Option String)} {key : String}
    (hpatch : muxPatch current (desiredMuxAnnotations cfg current aggregated texts) = some patch)
    (hforeign : Foreign cfg current key)
    (hlive : live.get key = current.get key) : (live.mergePatch patch).get key = current.get key := by
  unfold muxPatch at hpatch
  split_ifs at hpatch
  obtain rfl := Option.some.inj hpatch
  rw [Dict.get_mergePatch, Dict.get_patchTo, get_desiredMuxAnnotations texts hforeign]
  split_ifs
  · rfl
  · exact hlive

theorem same_mergePatch_patchTo (current desired : Dict String String) :
    (current.mergePatch (current.patchTo desired)).Same desired := by
  intro key
  rw [Dict.get_mergePatch, Dict.get_patchTo]
  split_ifs with h
  · rfl
  · rw [Option.getD_none, (Dict.get_eq_none_iff _ _).mpr (not_or.mp h).1,
      (Dict.get_eq_none_iff _ _).mpr (not_or.mp h).2]

theorem muxAnnotations_iteration (hdryrun : s.dryrunMode = false) {out : PassOutputs}
    (h : (iteration cfg s cluster).outcome = .ok out) :
    (cluster.applyAll cfg (iteration cfg s cluster).emitted).mux.annotations.Same
      out.muxAnnotations := by
  obtain ⟨-, -, texts, -, -, -, -, -, -, -, hrequests, -⟩ := requestsTo_iteration h
  rw [muxAnnotations_applyAll, hrequests, muxAnnotationsRequests, muxPatch]
  by_cases hsame : cluster.mux.annotations.same out.muxAnnotations = true
  · rw [if_pos hsame]
    exact (Dict.same_iff _ _).mp hsame
  · rw [if_neg hsame]
    simp only [unlessDryrun, hdryrun, Bool.false_eq_true, if_false]
    exact same_mergePatch_patchTo _ _

theorem configmap_iteration (hdryrun : s.dryrunMode = false) {out : PassOutputs}
    (h : (iteration cfg s cluster).outcome = .ok out) :
    (cluster.applyAll cfg (iteration cfg s cluster).emitted).configmap = out.result.configmap := by
  obtain ⟨-, start, -, -, hstart, -, -, -, -, hrequests, -⟩ := requestsTo_iteration h
  obtain ⟨-, hconfigmap⟩ := muxPass_from_start (pass_of_iteration h) hstart
  rw [show (cluster.passInput s).configmap = cluster.configmap from rfl] at hconfigmap
  rw [configmap_applyAll, hrequests, hconfigmap]
  unfold saveRequests savedConfigmap
  cases start.store with
  | none => rfl
  | some store =>
    simp only [unlessDryrun, hdryrun, Bool.false_eq_true, if_false]
    split_ifs <;> rfl

theorem oldMuxPorts_iteration (hdryrun : s.dryrunMode = false) {out : PassOutputs}
    (h : (iteration cfg s cluster).outcome = .ok out) :
    oldMuxPorts (cluster.applyAll cfg (iteration cfg s cluster).emitted).mux.ports =
      .ok out.result.muxPorts := by
  obtain ⟨oldPorts, -, -, hports, -, -, -, -, -, -, -, hrequests, -⟩ := requestsTo_iteration h
  rw [muxPorts_applyAll, hrequests, muxPortsRequests]
  by_cases hsame : oldPorts = out.result.muxPorts
  · simp only [hsame, ne_eq, not_true_eq_false, if_false]
    exact hsame ▸ hports
  · simp only [ne_eq, hsame, not_false_eq_true, if_true, unlessDryrun, hdryrun, Bool.false_eq_true,
      if_false]
    change oldMuxPorts ((s.order.toList out.result.muxPorts).map _) = _
    rw [oldMuxPorts_written]
    congr 1
    ext m
    rw [List.mem_toFinset, s.order.mem_toList]

theorem follows_of_iteration (hdryrun : s.dryrunMode = false) {out : PassOutputs}
    (h : (iteration cfg s cluster).outcome = .ok out) (s' : Surroundings) :
    Follows cfg (cluster.passInput s) out.result.toPassResult
      ((cluster.applyAll cfg (iteration cfg s cluster).emitted).passInput s') := by
  have hmux := mux_applyAll cfg cluster (iteration cfg s cluster).emitted
  obtain ⟨hstore, hranges, hlimit⟩ := @settings_eq cfg cluster.mux
    (cluster.applyAll cfg (iteration cfg s cluster).emitted).mux
    (by rw [hmux]) (by rw [hmux]) (by
      intro key hkey
      obtain ⟨-, -, texts, -, -, -, hannotations, -⟩ := requestsTo_iteration h
      rw [muxAnnotations_iteration hdryrun h key, hannotations]
      exact get_desiredMuxAnnotations texts (foreign_of_settings hkey))
  exact ⟨hstore, hranges, congrArg Prod.fst hlimit, oldMuxPorts_iteration hdryrun h,
    configmap_iteration hdryrun h,
    (s'.index.perm _).trans (channels_perm_iteration hdryrun h)⟩

end Next

end SvcLbMux
