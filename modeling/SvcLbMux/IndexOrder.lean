import SvcLbMux.EndpointsMetadata
import SvcLbMux.ExternalDns
import SvcLbMux.MalformedObjects

namespace SvcLbMux

open Py

/-! ## The texts of the annotations -/

/-- What the texts show besides: the ingress points of the mux by hostname and IP, and the node ports
of the channels. -/
structure Display where
  ingress : List (Option String × Option String)
  nodePort : Channel → ServicePort → Option Int

/-- `ingress_list[0].get("hostname") or ingress_list[0].get("ip")`. -/
def muxExternalDns : List (Option String × Option String) → Option String
  | [] => none
  | (hostname, ip) :: _ => if hostname.getD "" ≠ "" then hostname else ip

def getPrimaryDns (dnsText : Option String) : Option String :=
  (parseExternalDns dnsText).head?

def formatDnsDisplay (dnsText : Option String) : Option String :=
  match parseExternalDns dnsText with
  | [] => none
  | [hostname] => some hostname
  | hostname :: hostnames =>
    some (hostname ++ " (+" ++ str hostnames.length ++ " more)")

section Texts

variable (cfg : Config) (display : Display) (memoEndpoints : MemoEndpoints)

def readyPods (channel : Channel) : Nat :=
  ((cachedSubsets memoEndpoints channel).map fun subset => subset.addresses.length).sum

def countReadyChannelPods (channels : List Channel) : Nat :=
  (channels.map (readyPods memoEndpoints)).sum

def countDeclaredPorts (channels : List Channel) : Nat :=
  (channels.map fun channel => channel.ports.length).sum

def topologyPort (channel : Channel) (mappings : Dict String String) (port : ServicePort) : String :=
  let portName := port.name.getD "unnamed"
  let nodePort := ((display.nodePort channel port).map str).getD "pending"
  " " ++ portName ++ ":" ++ str port.port ++ "->" ++ (mappings.get portName).getD nodePort

def channelDnsDisplay (muxDns : Option String) (channel : Channel) : String :=
  let dnsText := (channelExternalDnsHostname cfg channel).getD ""
  if dnsText ≠ "" then
    (formatDnsDisplay (some dnsText)).getD dnsText ++ " (custom)"
  else (getPrimaryDns muxDns).getD "pending"

def channelTopology (muxDns : Option String) (channel : Channel) :
    Except ValueError (List String) :=
  (parsePortMappings (channel.annotation cfg.annotationPorts)).map fun mappings =>
    ["  - " ++ channel.namespace_ ++ "/" ++ channel.name,
      "    DNS: " ++ channelDnsDisplay cfg muxDns channel,
      "    Ports:" ++ String.join (channel.ports.map (topologyPort display channel mappings)),
      "    Backend: " ++ str (readyPods memoEndpoints channel) ++ " pod(s) ready"]

def Annotations.formatTopologyAnnotation (channels : List Channel) (muxDns : Option String) :
    Except ValueError String :=
  ((sortChannels channels).mapM (channelTopology cfg display memoEndpoints muxDns)).map fun blocks =>
    let dns := muxDns.getD ""
    let head := if dns ≠ "" then ["Mux DNS: " ++ (formatDnsDisplay muxDns).getD dns, ""] else []
    String.intercalate "\n" (head ++ ["Channels:"] ++ blocks.flatten ++ ["",
      "Summary: " ++ str channels.length ++ " channel(s), " ++
        str (countDeclaredPorts channels) ++ " port(s), " ++
        str (countReadyChannelPods memoEndpoints channels) ++ " backend pod(s)"])

def formatSummaryAnnotation (channels : List Channel) (totalPorts totalPods : Nat)
    (muxDns : Option String) : String :=
  let dnsPart := match formatDnsDisplay muxDns with
    | some dnsDisplay => "DNS: " ++ dnsDisplay
    | none => "DNS: pending"
  str channels.length ++ " channel(s) | " ++ str totalPorts ++ " port(s) | " ++ str totalPods ++
    " pod(s) | " ++ dnsPart

/-- The names of the channels, as the index yields them. -/
def channelList (channels : List Channel) : List String :=
  channels.map fun channel => channel.namespace_ ++ "/" ++ channel.name

/-- The texts of a pass that has accepted this many ports. -/
def generatedTexts (channels : List Channel) (totalPorts : Nat) :
    Except ValueError GeneratedTexts :=
  let muxDns := muxExternalDns display.ingress
  (Annotations.formatTopologyAnnotation cfg display memoEndpoints channels muxDns).map fun topology =>
    { channels := dumps (channelList channels)
      topology := topology
      summary := formatSummaryAnnotation channels totalPorts
        (countReadyChannelPods memoEndpoints channels) muxDns }

structure PassOutputs where
  result : IterationResult
  muxAnnotations : Dict String String

/-- An iteration, up to the annotations that it wants its mux to have. -/
def passOutputs (sources : DebugSources) (st : DebugState) (input : PassInput) : Except PyError PassOutputs :=
  match (daemonIteration cfg input memoEndpoints sources st).1 with
  | .error e => .error e
  | .ok r =>
    match generatedTexts cfg display memoEndpoints input.channels r.final.ports.card with
    | .error e => .error (.valueError e)
    | .ok texts =>
      .ok ⟨r, desiredMuxAnnotations cfg input.mux.annotations
        (aggregateExternalDnsAnnotations cfg (sortChannels input.channels)) texts⟩

end Texts

/-! ## What does not depend on the order -/

section Order

variable {cfg : Config} {display : Display} {memoEndpoints : MemoEndpoints} {input : AdmittedPass}
  {channels : List Channel} (hperm : input.channels.Perm channels)

include hperm

theorem sortChannels_index : sortChannels channels = sortChannels input.channels :=
  (input.sortChannels_eq (hperm.trans (perm_sortBy _ _).symm)
    (pairwise_sortBy channelSortKey _)).symm

theorem reconcileChannels_index :
    reconcileChannels cfg { input.toPassInput with channels := channels } memoEndpoints =
      reconcileChannels cfg input.toPassInput memoEndpoints := by
  simp only [reconcileChannels, passStart, topologyMappings, sortChannels_index hperm]

theorem countReadyChannelPods_index :
    countReadyChannelPods memoEndpoints channels =
      countReadyChannelPods memoEndpoints input.channels :=
  (hperm.map (readyPods memoEndpoints)).symm.sum_nat

theorem countDeclaredPorts_index :
    countDeclaredPorts channels = countDeclaredPorts input.channels :=
  (hperm.map fun channel : Channel => channel.ports.length).symm.sum_nat

theorem formatTopologyAnnotation_index (muxDns : Option String) :
    Annotations.formatTopologyAnnotation cfg display memoEndpoints channels muxDns =
      Annotations.formatTopologyAnnotation cfg display memoEndpoints input.channels muxDns := by
  simp only [Annotations.formatTopologyAnnotation, sortChannels_index hperm,
    countDeclaredPorts_index hperm, ← hperm.length_eq, countReadyChannelPods_index hperm]

theorem generatedTexts_index (totalPorts : Nat) :
    generatedTexts cfg display memoEndpoints channels totalPorts =
      (generatedTexts cfg display memoEndpoints input.channels totalPorts).map fun texts =>
        { texts with channels := dumps (channelList channels) } := by
  simp only [generatedTexts, formatTopologyAnnotation_index hperm, formatSummaryAnnotation,
    ← hperm.length_eq, countReadyChannelPods_index hperm]
  cases Annotations.formatTopologyAnnotation cfg display memoEndpoints input.channels
    (muxExternalDns display.ingress) <;> rfl

theorem daemonIteration_index {sources : DebugSources} {st : DebugState} {r : IterationResult} :
    (daemonIteration cfg { input.toPassInput with channels := channels } memoEndpoints sources st).1 =
        .ok r ↔
      (daemonIteration cfg input.toPassInput memoEndpoints sources st).1 = .ok r := by
  rw [daemonIteration_eq_ok_iff, daemonIteration_eq_ok_iff, reconcileChannels_index hperm]
  exact and_congr_left' (forall_congr' fun c => imp_congr_left hperm.mem_iff.symm)

end Order

/-! ## What a pass computes -/

section Outputs

variable {cfg : Config} {display : Display} {memoEndpoints : MemoEndpoints} {sources : DebugSources}
  {st : DebugState} {input : AdmittedPass} {channels : List Channel}

theorem generatedTexts_ok (cfg : Config) (display : Display) (memoEndpoints : MemoEndpoints)
    {channels : List Channel} (h : ∀ c ∈ channels, PortsAnnotationReadable cfg c)
    (totalPorts : Nat) :
    ∃ texts, generatedTexts cfg display memoEndpoints channels totalPorts = .ok texts := by
  obtain ⟨blocks, hblocks⟩ : ∃ blocks, (sortChannels channels).mapM
      (channelTopology cfg display memoEndpoints (muxExternalDns display.ingress)) = .ok blocks := by
    refine Loop.mapM_ok_iff.mpr fun c hc => ?_
    obtain ⟨mappings, hmappings⟩ := h c (mem_sortChannels.mp hc)
    rw [channelTopology, hmappings]
    exact ⟨_, rfl⟩
  rw [generatedTexts, Annotations.formatTopologyAnnotation, hblocks]
  exact ⟨_, rfl⟩

theorem channels_of_generatedTexts {channels : List Channel} {totalPorts : Nat}
    {texts : GeneratedTexts}
    (h : generatedTexts cfg display memoEndpoints channels totalPorts = .ok texts) :
    texts.channels = dumps (channelList channels) := by
  unfold generatedTexts at h
  cases htopology : Annotations.formatTopologyAnnotation cfg display memoEndpoints channels
      (muxExternalDns display.ingress) with
  | error e => simp [htopology, Except.map] at h
  | ok topology =>
    simp only [htopology, Except.map, Except.ok.injEq] at h
    rw [← h]

theorem passOutputs_eq_ok {input : PassInput} {out : PassOutputs}
    (h : passOutputs cfg display memoEndpoints sources st input = .ok out) :
    (daemonIteration cfg input memoEndpoints sources st).1 = .ok out.result ∧ ∃ texts,
      generatedTexts cfg display memoEndpoints input.channels out.result.final.ports.card = .ok texts ∧
      out.muxAnnotations = desiredMuxAnnotations cfg input.mux.annotations
        (aggregateExternalDnsAnnotations cfg (sortChannels input.channels)) texts := by
  unfold passOutputs at h
  cases hr : (daemonIteration cfg input memoEndpoints sources st).1 with
  | error e => simp [hr] at h
  | ok r =>
    cases htexts : generatedTexts cfg display memoEndpoints input.channels r.final.ports.card with
    | error e => simp [hr, htexts] at h
    | ok texts =>
      simp only [hr, htexts, Except.ok.injEq] at h
      rw [← h]
      refine ⟨rfl, texts, htexts, ?_⟩
      dsimp only

theorem passOutputs_ok_iff :
    (∃ out, passOutputs cfg display memoEndpoints sources st input.toPassInput = .ok out) ↔
      Digestible cfg input.toPassInput memoEndpoints := by
  constructor
  · rintro ⟨out, hout⟩
    exact (daemonIteration_ok_iff input sources st).mp ⟨out.result, (passOutputs_eq_ok hout).1⟩
  · intro h
    obtain ⟨r, hr⟩ := (daemonIteration_ok_iff input sources st).mpr h
    obtain ⟨texts, htexts⟩ := generatedTexts_ok cfg display memoEndpoints
      (fun c hc => ((annotation_readable_iff c).mpr (h.annotations c hc)).1) r.final.ports.card
    rw [passOutputs, hr]
    dsimp only
    rw [htexts]
    exact ⟨_, rfl⟩

end Outputs

/-! ## The order in the annotation of the channels -/

theorem get_desiredMuxAnnotations_channels (cfg : Config) (current aggregated : Dict String String)
    (texts : GeneratedTexts) :
    (desiredMuxAnnotations cfg current aggregated texts).get cfg.annotationChannels =
      some texts.channels := by
  have htopology : cfg.annotationTopology ≠ cfg.annotationChannels :=
    cfg.annotationKey_injective.ne (by decide)
  have hsummary : cfg.annotationSummary ≠ cfg.annotationChannels :=
    cfg.annotationKey_injective.ne (by decide)
  rw [desiredMuxAnnotations, Dict.get_set_ne _ hsummary, Dict.get_set_ne _ htopology,
    Dict.get_set_self]

section Names

variable {c d : Channel}

theorem plainText_of_isDnsLabel {s : String} (h : isDnsLabel s = true) : PlainText s := by
  intro char hchar
  have hnat := toNat_of_isDnsLabel h hchar
  have hlower : 32 ≤ char.toNat := by omega
  have hupper : char.toNat ≤ 126 := by omega
  refine ⟨hlower, hupper, ?_, ?_⟩
  · rintro rfl
    exact absurd hnat (by decide)
  · rintro rfl
    exact absurd hnat (by decide)

theorem plainText_channelRef (hc : c.Admitted) : PlainText (c.namespace_ ++ "/" ++ c.name) := by
  have hslash : PlainText "/" := by
    intro char hchar
    obtain rfl : char = '/' := by simpa using hchar
    decide
  intro char hchar
  simp only [String.toList_append, List.mem_append] at hchar
  rcases hchar with (hchar | hchar) | hchar
  · exact plainText_of_isDnsLabel hc.namespace_ char hchar
  · exact hslash char hchar
  · exact plainText_of_isDnsLabel hc.name char hchar

theorem key_eq_of_channelRef_eq (hc : c.Admitted) (hd : d.Admitted)
    (h : c.namespace_ ++ "/" ++ c.name = d.namespace_ ++ "/" ++ d.name) : c.key = d.key := by
  have hl := congrArg String.toList h
  simp only [String.toList_append, show "/".toList = ['/'] from rfl, List.append_assoc,
    List.singleton_append] at hl
  obtain ⟨hnamespace, hname⟩ := append_cons_inj (notMem_of_isDnsLabel hc.namespace_ (by decide))
    (notMem_of_isDnsLabel hd.namespace_ (by decide)) hl
  exact Prod.ext (String.toList_inj.mp hnamespace) (String.toList_inj.mp hname)

end Names

theorem eq_of_dumps_channelList_eq {input : AdmittedPass} {channels : List Channel}
    (hperm : input.channels.Perm channels)
    (h : dumps (channelList channels) = dumps (channelList input.channels)) :
    channels = input.channels := by
  have hadmitted : ∀ c ∈ channels, c.Admitted := fun c hc =>
    input.admitted c (hperm.mem_iff.mpr hc)
  have hplain : ∀ channels : List Channel, (∀ c ∈ channels, c.Admitted) →
      ∀ text ∈ channelList channels, PlainText text := by
    rintro channels hadmitted text htext
    obtain ⟨c, hc, rfl⟩ := List.mem_map.mp htext
    exact plainText_channelRef (hadmitted c hc)
  have hlist := dumps_injective (hplain _ hadmitted) (hplain _ input.admitted) h
  refine List.ext_getElem hperm.length_eq.symm fun i hi hi' => ?_
  have href := congrArg (fun refs => refs[i]?) hlist
  simp only [channelList, List.getElem?_map, List.getElem?_eq_getElem hi,
    List.getElem?_eq_getElem hi', Option.map_some, Option.some.injEq] at href
  have hmem := hperm.mem_iff.mpr (List.getElem_mem hi)
  exact input.eq_of_key_eq hmem (List.getElem_mem hi')
    (key_eq_of_channelRef_eq (input.admitted _ hmem) (input.admitted _ (List.getElem_mem hi')) href)

section Outputs

variable {cfg : Config} {display : Display} {memoEndpoints : MemoEndpoints} {sources : DebugSources}
  {st : DebugState} {input : AdmittedPass} {channels : List Channel}

/-- Another order changes the annotation of the channels, and nothing else. -/
theorem passOutputs_index (hperm : input.channels.Perm channels) {out : PassOutputs}
    (h : passOutputs cfg display memoEndpoints sources st input.toPassInput = .ok out) :
    ∃ texts, texts.channels = dumps (channelList input.channels) ∧
      out.muxAnnotations = desiredMuxAnnotations cfg input.mux.annotations
        (aggregateExternalDnsAnnotations cfg (sortChannels input.channels)) texts ∧
      passOutputs cfg display memoEndpoints sources st
          { input.toPassInput with channels := channels } =
        .ok ⟨out.result, desiredMuxAnnotations cfg input.mux.annotations
          (aggregateExternalDnsAnnotations cfg (sortChannels input.channels))
          { texts with channels := dumps (channelList channels) }⟩ := by
  obtain ⟨hr, texts, htexts, hannotations⟩ := passOutputs_eq_ok h
  refine ⟨texts, channels_of_generatedTexts htexts, hannotations, ?_⟩
  rw [passOutputs, (daemonIteration_index hperm).mpr hr]
  dsimp only
  rw [generatedTexts_index hperm, htexts, sortChannels_index hperm]
  rfl

theorem muxPatch_index (hperm : input.channels.Perm channels) {out : PassOutputs}
    (h : passOutputs cfg display memoEndpoints sources st input.toPassInput = .ok out)
    (hsettled : input.mux.annotations.Same out.muxAnnotations) :
    ∃ out', passOutputs cfg display memoEndpoints sources st
        { input.toPassInput with channels := channels } = .ok out' ∧
      (muxPatch input.mux.annotations out'.muxAnnotations = none ↔ channels = input.channels) := by
  obtain ⟨texts, htexts, hannotations, hreordered⟩ := passOutputs_index hperm h
  refine ⟨_, hreordered, ?_⟩
  rw [muxPatch, ite_eq_left_iff]
  simp only [reduceCtorEq, imp_false, not_not, Dict.same_iff]
  constructor
  · intro hsame
    have hchannels := (hsettled cfg.annotationChannels).symm.trans (hsame cfg.annotationChannels)
    rw [hannotations, get_desiredMuxAnnotations_channels, get_desiredMuxAnnotations_channels,
      htexts] at hchannels
    exact eq_of_dumps_channelList_eq hperm (Option.some.inj hchannels).symm
  · rintro rfl key
    rw [hsettled key, hannotations, ← htexts]

end Outputs

/-- Two orders of the index make a pass compute the same if and only if they are one order, or the pass
does not end. -/
theorem pass_index_order_iff (cfg : Config) (display : Display) (memoEndpoints : MemoEndpoints)
    (sources : DebugSources) (st : DebugState) (input : AdmittedPass) (channels : List Channel)
    (hperm : input.channels.Perm channels) :
    (passOutputs cfg display memoEndpoints sources st
          { input.toPassInput with channels := channels }).toOption =
        (passOutputs cfg display memoEndpoints sources st input.toPassInput).toOption ↔
      (Digestible cfg input.toPassInput memoEndpoints → channels = input.channels) := by
  constructor
  · intro hsame hends
    obtain ⟨out, hout⟩ := passOutputs_ok_iff.mpr hends
    obtain ⟨texts, htexts, hannotations, hreordered⟩ := passOutputs_index hperm hout
    rw [hout, hreordered] at hsame
    have hmux := congrArg PassOutputs.muxAnnotations (Option.some.inj hsame)
    have hchannels := congrArg (fun annotations => annotations.get cfg.annotationChannels)
      (hmux.trans hannotations)
    simp only [get_desiredMuxAnnotations_channels, htexts] at hchannels
    exact eq_of_dumps_channelList_eq hperm (Option.some.inj hchannels)
  · intro h
    by_cases hends : Digestible cfg input.toPassInput memoEndpoints
    · rw [h hends]
    cases hreordered : passOutputs cfg display memoEndpoints sources st
        { input.toPassInput with channels := channels } with
    | ok out =>
      have hr := (daemonIteration_index hperm).mp (passOutputs_eq_ok hreordered).1
      exact absurd ((daemonIteration_ok_iff input sources st).mp ⟨out.result, hr⟩) hends
    | error e =>
      cases hout : passOutputs cfg display memoEndpoints sources st input.toPassInput with
      | ok out => exact absurd (passOutputs_ok_iff.mp ⟨out, hout⟩) hends
      | error e => rfl

/-- What a pass over these channels computes, behind a mux whose only port has this name. -/
def orderedOutputs (muxPortName : Option String) (channels : List Channel) : Option PassOutputs :=
  let input := (unevenPass muxPortName "http:81->81").toPassInput
  (passOutputs sampleConfig ⟨[], fun _ _ => none⟩ (apiEndpoints (some "http")) sampleSources
    DebugState.empty { input with channels := channels }).toOption

/-- Behind an unnamed mux port the pass raises, and does so in the other order. -/
theorem pass_index_order_unnamed :
    orderedOutputs none (unevenPass none "http:81->81").channels = none ∧
      orderedOutputs none (unevenPass none "http:81->81").channels.reverse = none := by
  have hraises : orderedOutputs none (unevenPass none "http:81->81").channels = none := by
    decide +kernel
  refine ⟨hraises, Eq.trans ((pass_index_order_iff sampleConfig ⟨[], fun _ _ => none⟩
    (apiEndpoints (some "http")) sampleSources DebugState.empty (unevenPass none "http:81->81") _
    (List.reverse_perm _).symm).mpr fun h => ?_) hraises⟩
  have hport : ⟨none, 101, some "TCP"⟩ ∈ (unevenPass none "http:81->81").mux.ports :=
    List.mem_singleton_self _
  exact absurd rfl (h.muxPorts _ hport).1

/-- The `channels` annotation of the mux follows the order of the index. -/
theorem pass_outputs_reordered :
    orderedOutputs (some "placeholder")
        (unevenPass (some "placeholder") "http:81->81").channels.reverse ≠
      orderedOutputs (some "placeholder")
        (unevenPass (some "placeholder") "http:81->81").channels := by
  let channelsAnnotation (outputs : Option PassOutputs) : Option String :=
    outputs.bind fun out => out.muxAnnotations.get sampleConfig.annotationChannels
  refine ne_of_apply_ne channelsAnnotation ?_
  decide +kernel

end SvcLbMux
