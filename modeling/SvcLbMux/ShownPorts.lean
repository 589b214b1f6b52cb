import SvcLbMux.MuxDebugger
import SvcLbMux.Writes

namespace SvcLbMux

open Py

/-- The Service of a channel, as `muxdebug` gets it. -/
def Channel.debugged (c : Channel) (loadBalancerClass : Option String)
    (nodePort : ServicePort → Option Int) : MuxDebugger.DebuggedService where
  namespace_ := c.namespace_
  name := c.name
  annotations := c.annotations
  loadBalancerClass := loadBalancerClass
  ports := c.ports.map fun p => ⟨p.name, p.port, p.protocol, nodePort p⟩

namespace ResolvedPort

/-- What the debug API shows of a port that is served. -/
def shown (sources : DebugSources) (c : Channel) (r : ResolvedPort) : DebugPort where
  name := r.port.name
  port := r.port.port
  nodePort := sources.nodePort c r.port
  protocol := r.port.protocol
  muxPort := some r.muxPort

/-- What `muxdebug` shows of it. -/
def route (c : Channel) (nodePort : ServicePort → Option Int) (pods : List MuxDebugger.PodInfo)
    (r : ResolvedPort) : MuxDebugger.PortRoute where
  muxPort := r.muxPort
  protocol := r.port.protocolOrTcp
  channelName := c.name
  channelNamespace := c.namespace_
  channelPort := r.port.port
  nodePort := nodePort r.port
  targetPods := pods
  channelExternalDns := c.annotations.get externalDnsHostnameAnnotation

end ResolvedPort

/-- The pods that `muxdebug` shows behind a channel. -/
def MuxDebugger.Cluster.pods (tool : MuxDebugger.Cluster) (key : String × String) :
    List MuxDebugger.PodInfo :=
  match tool.endpoints.get key with
  | none => []
  | some subsets => MuxDebugger.extractPodInfos subsets

/-! ## What an annotation shows -/

/-- What both tools read from the annotation of a channel. -/
def shownMuxPorts (resolved : List ResolvedPort) : Dict String Int :=
  Dict.ofList ((resolved.map ResolvedPort.mapping).map fun m => (m.1, m.2.2))

namespace Carries

variable {cfg : Config} {c : Channel} {resolved : List ResolvedPort} (h : Carries cfg c resolved)

include h

theorem get_shownMuxPorts {r : ResolvedPort} (hr : r ∈ resolved) :
    r.port.name.bind (shownMuxPorts resolved).get = some r.muxPort := by
  have hnamed := h.named r.port (h.ports ▸ List.mem_map_of_mem hr)
  have hnodup := MuxState.nodup_portNames_of_resolved h.admitted h.named h.ports
  cases hname : r.port.name with
  | none => simp [ServicePort.unnamed, ServicePort.portName, hname] at hnamed
  | some name =>
    refine Dict.get_updateList_of_nodup _ _ ?_ ?_
    · simpa [Function.comp_def, ResolvedPort.mapping] using hnodup
    · rw [List.map_map]
      refine List.mem_map.mpr ⟨r, hr, ?_⟩
      simp [ResolvedPort.mapping, ServicePort.portName, hname]

theorem exists_debugChannel (sources : DebugSources) (muxKey : String × String) (mux : DebugMux) :
    ∃ state, debugChannel cfg sources muxKey mux c = .ok state ∧ state.mux = muxKey ∧
      state.ports = resolved.map (ResolvedPort.shown sources c) := by
  have hread : DebugState.parseMuxPortAnnotation (c.annotation cfg.annotationPorts) =
      .ok (shownMuxPorts resolved) := h.parseMuxPortAnnotation_eq
  rw [debugChannel, hread]
  refine ⟨_, rfl, rfl, ?_⟩
  dsimp only
  rw [← h.ports, List.map_map]
  apply List.map_congr_left
  intro r hr
  dsimp only [Function.comp_apply]
  rw [h.get_shownMuxPorts hr]
  rfl

theorem channelRoutes_eq (tool : MuxDebugger.Cluster) (loadBalancerClass : Option String)
    (nodePort : ServicePort → Option Int) :
    MuxDebugger.channelRoutes cfg tool (c.debugged loadBalancerClass nodePort) =
      .ok (resolved.map (ResolvedPort.route c nodePort (tool.pods c.key))) := by
  have hread : MuxDebugger.muxPortsByName cfg (c.debugged loadBalancerClass nodePort) =
      .ok (shownMuxPorts resolved) := by
    rw [shownMuxPorts, ← parseChannelPortMappings_format h.plain h.writable]
    exact congrArg parseChannelPortMappings h.annotation
  rw [MuxDebugger.channelRoutes, hread]
  refine congrArg Except.ok ?_
  change (c.ports.map _).filterMap _ = _
  rw [← h.ports, List.map_map, List.filterMap_map, ← List.filterMap_eq_map]
  apply List.filterMap_congr
  intro r hr
  have hrange := h.inRange r hr
  dsimp only [Function.comp_apply]
  rw [MuxDebugger.portRoute, MuxDebugger.shownMuxPort, h.get_shownMuxPorts hr, Option.getD_some,
    if_neg (by omega)]
  rfl

end Carries

/-! ## After an iteration -/

section Iteration

variable {cfg : Config}

theorem mem_of_oldMuxPorts {ports : List ServicePort} {found : Finset MuxPort}
    (h : oldMuxPorts ports = .ok found) (m : MuxPort) :
    m ∈ found ↔ ⟨some m.name, m.port, some m.protocol⟩ ∈ ports := by
  induction ports generalizing found with
  | nil =>
    obtain rfl := Except.ok.inj h
    simp
  | cons p ports ih =>
    obtain ⟨name, port, protocol⟩ := p
    obtain ⟨hnamed, hprotocol⟩ := ((oldMuxPorts_ok_iff _).mp ⟨found, h⟩) _ List.mem_cons_self
    obtain ⟨name, rfl⟩ := Option.ne_none_iff_exists'.mp hnamed
    obtain ⟨protocol, rfl⟩ := Option.ne_none_iff_exists'.mp hprotocol
    rw [oldMuxPorts] at h
    cases hrest : oldMuxPorts ports with
    | error e =>
      rw [hrest] at h
      cases h
    | ok rest =>
      rw [hrest] at h
      obtain rfl := Except.ok.inj h
      rw [Finset.mem_insert, ih hrest, List.mem_cons]
      obtain ⟨n, q, t⟩ := m
      simp

theorem exists_accepted_of_mem_muxPorts {input : PassInput} {r : PassResult}
    (hpass : muxPass cfg input = .ok r) {m : MuxPort} (hm : m ∈ r.muxPorts)
    (hne : m ≠ placeholderMuxPort) : ∃ c resolved, (c, .accepted resolved) ∈ r.reports ∧
      ∃ port ∈ resolved, m = port.toMuxPort cfg c := by
  obtain ⟨start, -, -, hmux, -⟩ := muxPass_eq_ok hpass
  have hcollected := collected_of_reaches (passReaches_of_muxPass hpass)
  rw [hmux, buildMuxPorts] at hm
  split_ifs at hm
  · exact absurd (Finset.mem_singleton.mp hm) hne
  · obtain ⟨⟨c, outcome⟩, hreport, hin⟩ :=
      List.mem_flatMap.mp ((hcollected.ports m).mp (Finset.mem_filter.mp hm).1)
    cases outcome with
    | rejected rejection => exact absurd hin List.not_mem_nil
    | accepted resolved =>
      obtain ⟨port, hport, rfl⟩ := List.mem_map.mp hin
      exact ⟨c, resolved, hreport, port, hport, rfl⟩

end Iteration

/-- After an iteration whose requests took effect, the debug API and `muxdebug` show for each port of
an accepted channel one and the same mux port, and the mux has it under the name that stands for the
port. Every port of the mux, but the placeholder, is shown so. A rejected channel is shown as before. -/
theorem tools_show_served_ports (cfg : Config) (cluster : Cluster) (s : Surroundings)
    (hdryrun : s.dryrunMode = false) (out : PassOutputs)
    (h : (iteration cfg s cluster).outcome = .ok out) :
    let later := cluster.applyAll cfg (iteration cfg s cluster).emitted
    (∀ c resolved, (c, .accepted resolved) ∈ out.result.reports →
      ∃ c' ∈ later.channels, c'.key = c.key ∧ c'.ports = c.ports ∧
        resolved.map ResolvedPort.port = c.ports ∧
        (∀ sources muxKey mux, ∃ state, debugChannel cfg sources muxKey mux c' = .ok state ∧
          state.mux = muxKey ∧ state.ports = resolved.map (ResolvedPort.shown sources c')) ∧
        (∀ tool loadBalancerClass nodePort,
          MuxDebugger.channelRoutes cfg tool (c'.debugged loadBalancerClass nodePort) =
            .ok (resolved.map (ResolvedPort.route c' nodePort (tool.pods c'.key)))) ∧
        ∀ r ∈ resolved, ⟨some (c.muxName cfg r.port), r.muxPort, some r.port.protocolOrTcp⟩ ∈
          later.mux.ports) ∧
    (∀ m : MuxPort, ⟨some m.name, m.port, some m.protocol⟩ ∈ later.mux.ports →
      m ≠ placeholderMuxPort → ∃ c resolved, (c, .accepted resolved) ∈ out.result.reports ∧
        ∃ r ∈ resolved, m = r.toMuxPort cfg c) ∧
    ∀ c rejection, (c, .rejected rejection) ∈ out.result.reports → c ∈ later.channels := by
  have hpass : muxPass cfg (cluster.admittedPass s).toPassInput = .ok out.result.toPassResult :=
    pass_of_iteration h
  have hperm := channels_perm_iteration hdryrun h
  have hserved := mem_of_oldMuxPorts (oldMuxPorts_iteration hdryrun h)
  refine ⟨fun c resolved hreport => ?_, fun m hm hne => ?_, fun c rejection hreport => ?_⟩
  · have hcarries := carries_of_accepted hpass hreport
    refine ⟨channelAfter cfg (c, .accepted resolved), ?_, key_channelAfter _, ports_channelAfter _,
      ?_, hcarries.exists_debugChannel, hcarries.channelRoutes_eq, fun r hr => ?_⟩
    · exact hperm.mem_iff.mpr (List.mem_map_of_mem hreport)
    · rw [hcarries.ports, ports_channelAfter]
    · exact (hserved (r.toMuxPort cfg c)).mp (mem_muxPorts_of_accepted hpass hreport hr)
  · exact exists_accepted_of_mem_muxPorts hpass ((hserved m).mpr hm) hne
  · exact hperm.mem_iff.mpr (List.mem_map.mpr ⟨_, hreport, rfl⟩)

/-- The port 9000 that is allocated in the first iteration. -/
theorem tools_show_served_ports_sampleCluster :
    ∃ c' ∈ (sampleCluster.applyAll sampleConfig
        (iteration sampleConfig (sampleSurroundings Dict.empty) sampleCluster).emitted).channels,
      c'.key = ("default", "web") ∧ ∀ muxKey mux, ∃ state,
        debugChannel sampleConfig sampleSources muxKey mux c' = .ok state ∧
        state.mux = muxKey ∧ state.ports = [⟨some "http", 81, none, some "TCP", some 9000⟩] := by
  have hends : ∃ out,
      (iteration sampleConfig (sampleSurroundings Dict.empty) sampleCluster).outcome = .ok out ∧
      (sampleChannel "web" "http" 81 [("svc-mux.nowake.ai/external-ports", "http:auto")],
        Outcome.accepted [⟨⟨some "http", 81, some "TCP"⟩, 9000⟩]) ∈ out.result.reports := by
    decide +kernel
  obtain ⟨out, hout, haccepted⟩ := hends
  obtain ⟨c', hc', hkey, -, -, hshown, -⟩ := (tools_show_served_ports sampleConfig sampleCluster
    (sampleSurroundings Dict.empty) rfl out hout).1 _ _ haccepted
  exact ⟨c', hc', hkey, hshown sampleSources⟩

end SvcLbMux
