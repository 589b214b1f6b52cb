import SvcLbMux.Allocator
import SvcLbMux.Incumbents

namespace SvcLbMux

open Py

variable {cfg : Config}

variable {c : Channel} {explicitPorts : Dict String PortRequest} {served : List ResolvedPort}

/-! ## Served ports -/

/-- A port of a channel with the mux port that it is served at. -/
structure ServedPort where
  channel : Channel
  resolved : ResolvedPort

namespace ServedPort

def key (e : ServedPort) : PortKey := e.resolved.key

def claimKey (e : ServedPort) : String := e.channel.claimKey e.resolved.port

def owner (cfg : Config) (e : ServedPort) : String := e.channel.owner cfg e.resolved.port

def toMuxPort (cfg : Config) (e : ServedPort) : MuxPort := e.resolved.toMuxPort cfg e.channel

/-- The mux port is allocated, not asked for by its number. -/
def Auto (cfg : Config) (e : ServedPort) : Prop :=
  ∃ explicitPorts, channelPortClaims cfg e.channel = .ok explicitPorts ∧
    explicitPorts.get e.resolved.port.portName = some .auto

/-- Other than for the port itself, a port number is taken: by a port before it, by a port that asks
for it by its number, or by a port of another owner. -/
def Taken (cfg : Config) (all before : List ServedPort) (e : ServedPort) (n : Int) : Prop :=
  ∃ e' ∈ all, e'.key = (n, e.resolved.port.protocolOrTcp) ∧
    (e' ∈ before ∨ ¬ e'.Auto cfg ∨ e'.owner cfg ≠ e.owner cfg)

/-- In the order of the ranges, all that comes before the mux port of an allocated port is taken. -/
def Foremost (cfg : Config) (ranges : List (Int × Int)) (all before : List ServedPort)
    (e : ServedPort) : Prop :=
  e.Auto cfg → ∀ n ∈ (rangePorts ranges).takeWhile (· ≠ e.resolved.muxPort), e.Taken cfg all before n

end ServedPort

def servedBy (c : Channel) (served : List ResolvedPort) : List ServedPort :=
  served.map fun r => ⟨c, r⟩

def reportedServed (report : Channel × Outcome) : List ServedPort :=
  match report.2 with
  | .accepted served => servedBy report.1 served
  | .rejected _ => []

/-- The ports that are served after a loop, in the order in which they were resolved. -/
def servedPorts (reports : List (Channel × Outcome)) : List ServedPort :=
  reports.flatMap reportedServed

@[simp] theorem mem_servedBy {c : Channel} {served : List ResolvedPort} {e : ServedPort} :
    e ∈ servedBy c served ↔ e.channel = c ∧ e.resolved ∈ served := by
  obtain ⟨d, r⟩ := e
  simp only [servedBy, List.mem_map, ServedPort.mk.injEq]
  constructor
  · rintro ⟨q, hq, rfl, rfl⟩
    exact ⟨rfl, hq⟩
  · rintro ⟨rfl, hr⟩
    exact ⟨r, hr, rfl, rfl⟩

theorem mem_servedPorts {reports : List (Channel × Outcome)} {e : ServedPort} :
    e ∈ servedPorts reports ↔
      ∃ served, (e.channel, Outcome.accepted served) ∈ reports ∧ e.resolved ∈ served := by
  simp only [servedPorts, List.mem_flatMap]
  constructor
  · rintro ⟨⟨c, outcome⟩, hreport, he⟩
    cases outcome with
    | rejected rejection => simp [reportedServed] at he
    | accepted served =>
      obtain ⟨rfl, hr⟩ := mem_servedBy.mp he
      exact ⟨served, hreport, hr⟩
  · rintro ⟨served, hreport, hr⟩
    exact ⟨_, hreport, mem_servedBy.mpr ⟨rfl, hr⟩⟩

theorem map_toMuxPort_servedPorts (reports : List (Channel × Outcome)) :
    (servedPorts reports).map (ServedPort.toMuxPort cfg) = acceptedMuxPorts cfg reports := by
  rw [servedPorts, acceptedMuxPorts, List.map_flatMap]
  congr 1
  funext report
  obtain ⟨c, outcome⟩ := report
  cases outcome with
  | rejected rejection => rfl
  | accepted served =>
    simp only [reportedServed, servedBy, reportedMuxPorts, List.map_map]
    rfl

theorem auto_iff (hclaims : channelPortClaims cfg c = .ok explicitPorts) {r : ResolvedPort} :
    (ServedPort.mk c r).Auto cfg ↔ explicitPorts.get r.port.portName = some .auto := by
  constructor
  · rintro ⟨explicitPorts', hclaims', hauto⟩
    obtain rfl := Except.ok.inj (hclaims.symm.trans hclaims')
    exact hauto
  · exact fun hauto => ⟨explicitPorts, hclaims, hauto⟩

/-- The reports of a pass that accepts all of its channels. -/
structure AllServed (cfg : Config) (reports : List (Channel × Outcome)) : Prop where
  admitted : ∀ report ∈ reports, report.1.Admitted
  distinct : (reports.map fun report => report.1.key).Nodup
  served : ∀ report ∈ reports, ∃ explicitPorts served, report.2 = .accepted served ∧
    ServedAt cfg report.1 explicitPorts served

namespace AllServed

variable {reports : List (Channel × Outcome)}

theorem servedAt (h : AllServed cfg reports) {e : ServedPort} (he : e ∈ servedPorts reports) :
    ∃ explicitPorts served, (e.channel, Outcome.accepted served) ∈ reports ∧
      ServedAt cfg e.channel explicitPorts served ∧ e.resolved ∈ served := by
  obtain ⟨served, hreport, hr⟩ := mem_servedPorts.mp he
  obtain ⟨explicitPorts, served', heq, hserved⟩ := h.served _ hreport
  obtain rfl : served = served' := by injection heq
  exact ⟨explicitPorts, served, hreport, hserved, hr⟩

theorem eq_of_port_eq (hserved : ServedAt cfg c explicitPorts served) (hc : c.Admitted)
    {r r' : ResolvedPort} (hr : r ∈ served) (hr' : r' ∈ served) (h : r.port = r'.port) : r = r' := by
  have hnodup : (served.map ResolvedPort.port).Nodup := by
    rw [hserved.ports]
    exact MuxState.nodup_ports_of_admitted hc
  exact List.inj_on_of_nodup_map hnodup hr hr' h

theorem eq_of_claimKey_eq (h : AllServed cfg reports) {e e' : ServedPort}
    (he : e ∈ servedPorts reports) (he' : e' ∈ servedPorts reports)
    (hkey : e'.claimKey = e.claimKey) : e' = e := by
  obtain ⟨explicitPorts, served, hreport, hserved, hr⟩ := h.servedAt he
  obtain ⟨-, served', hreport', hserved', hr'⟩ := h.servedAt he'
  have hc := h.admitted _ hreport
  have hp := mem_ports_of_mem hserved hr
  obtain ⟨hchannel, hname, -⟩ := SvcLbMux.eq_of_claimKey_eq hc hp hkey
  have hsame := List.inj_on_of_nodup_map h.distinct hreport' hreport hchannel
  obtain ⟨c, r⟩ := e
  obtain ⟨d, q⟩ := e'
  simp only [Prod.mk.injEq, Outcome.accepted.injEq] at hsame
  obtain ⟨rfl, rfl⟩ := hsame
  have hport : q.port = r.port := (eq_of_portName_eq hc.names hp (mem_ports_of_mem hserved hr')
    ((channelPortClaims_eq_ok hserved.claims).2 _ hp) hname.symm).symm
  exact congrArg (ServedPort.mk d) (eq_of_port_eq hserved hc hr' hr hport)

theorem nodup_servedPorts (h : AllServed cfg reports) : (servedPorts reports).Nodup := by
  rw [servedPorts, List.nodup_flatMap]
  constructor
  · rintro ⟨c, outcome⟩ hreport
    obtain ⟨explicitPorts, served, rfl, hserved⟩ := h.served _ hreport
    refine List.Nodup.map (fun r r' heq => congrArg ServedPort.resolved heq)
      (List.Nodup.of_map ResolvedPort.port ?_)
    rw [hserved.ports]
    exact MuxState.nodup_ports_of_admitted (h.admitted _ hreport)
  · have hdistinct := h.distinct
    rw [List.Nodup, List.pairwise_map] at hdistinct
    refine hdistinct.imp ?_
    rintro ⟨c, outcome⟩ ⟨d, outcome'⟩ hne e he he'
    refine hne (congrArg Channel.key ?_)
    cases outcome with
    | rejected rejection => simp [reportedServed] at he
    | accepted served =>
      cases outcome' with
      | rejected rejection => simp [reportedServed] at he'
      | accepted served' => exact (mem_servedBy.mp he).1.symm.trans (mem_servedBy.mp he').1

/-- What the channels ask for by number is what they are served at without an allocation. -/
theorem staticallyRequested_iff (h : AllServed cfg reports) (key : PortKey) :
    (∃ c ∈ reports.map Prod.fst, StaticallyRequests cfg c key) ↔
      ∃ e ∈ servedPorts reports, e.key = key ∧ ¬ e.Auto cfg := by
  constructor
  · rintro ⟨c, hc, explicitPorts, hclaims, p, hp, hstatic, rfl⟩
    obtain ⟨⟨c, outcome⟩, hreport, rfl⟩ := List.mem_map.mp hc
    obtain ⟨explicitPorts', served, rfl, hserved⟩ := h.served _ hreport
    obtain rfl := Except.ok.inj (hclaims.symm.trans hserved.claims)
    rw [← hserved.ports] at hp
    obtain ⟨r, hr, rfl⟩ := List.mem_map.mp hp
    refine ⟨⟨c, r⟩, mem_servedPorts.mpr ⟨served, hreport, hr⟩, ?_, ?_⟩
    · exact Prod.ext (hserved.static r hr hstatic).1 rfl
    · exact fun hauto => hstatic ((auto_iff hclaims).mp hauto)
  · rintro ⟨e, he, rfl, hstatic⟩
    obtain ⟨explicitPorts, served, hreport, hserved, hr⟩ := h.servedAt he
    have hauto : explicitPorts.get e.resolved.port.portName ≠ some .auto :=
      fun hauto => hstatic ((auto_iff hserved.claims).mpr hauto)
    exact ⟨e.channel, List.mem_map_of_mem hreport, explicitPorts, hserved.claims, e.resolved.port,
      mem_ports_of_mem hserved hr, hauto, Prod.ext (hserved.static _ hr hauto).1 rfl⟩

end AllServed

/-! ## The claims of a pass that remembers nothing -/

/-- What a state without a past still knows of all served ports: their owners, those of them that are
asked for by number, and that nobody shares an allocated one. -/
structure Remembered (cfg : Config) (all : List ServedPort) (st : MuxState) : Prop where
  nodup : all.Nodup
  claimKeys : ∀ e ∈ all, ∀ e' ∈ all, e'.claimKey = e.claimKey → e' = e
  owners : ∀ key o, st.reservedPortOwners.get key = some o ↔
    ∃ e ∈ all, e.key = key ∧ e.owner cfg = o
  reserved : ∀ key, key ∈ st.reservedPorts ↔ ∃ e ∈ all, e.key = key ∧ ¬ e.Auto cfg
  inRange : ∀ e ∈ all, e.Auto cfg → containsPort st.ranges e.resolved.muxPort = true
  alone : ∀ e ∈ all, e.Auto cfg → ∀ e' ∈ all, e'.key = e.key → e' = e

theorem remembered_of_fixed {all : List ServedPort} {st st' : MuxState}
    (h : Remembered cfg all st) (hfixed : st'.fixed = st.fixed) : Remembered cfg all st' := by
  refine ⟨h.nodup, h.claimKeys, ?_, ?_, ?_, h.alone⟩
  · rw [MuxState.reservedPortOwners_of_fixed hfixed]
    exact h.owners
  · rw [MuxState.reservedPorts_of_fixed hfixed]
    exact h.reserved
  · rw [MuxState.ranges_of_fixed hfixed]
    exact h.inRange

/-- The claims of a state are those of the ports that were resolved so far; a static port has none
until it is recorded. -/
structure ClaimsOf (cfg : Config) (done : List ServedPort) (st : MuxState) : Prop where
  only : ∀ key claim, st.claims.get key = some claim →
    ∃ e ∈ done, e.claimKey = key ∧ claim.listener = some e.key
  claimed : ∀ e ∈ done, e.Auto cfg →
    ∃ claim, st.claims.get e.claimKey = some claim ∧ claim.listener = some e.key

namespace MuxState

section Allocation

variable {all done todo : List ServedPort} {e : ServedPort} {st : MuxState}

theorem get_claims_of_todo (hst : Remembered cfg all st) (hclaims : ClaimsOf cfg done st)
    (hall : all = done ++ e :: todo) : st.claims.get e.claimKey = none := by
  cases hget : st.claims.get e.claimKey with
  | none => rfl
  | some claim =>
    obtain ⟨e', he', hkey, -⟩ := hclaims.only _ _ hget
    have hsame := hst.claimKeys e (by simp [hall]) e' (by simp [hall, he']) hkey
    have hnodup := hall ▸ hst.nodup
    exact absurd rfl ((List.nodup_append.mp hnodup).2.2 e' he' e' (by simp [hsame]))

theorem qualifies_served (hst : Remembered cfg all st) (hclaims : ClaimsOf cfg done st)
    (hall : all = done ++ e :: todo) (hauto : e.Auto cfg) :
    st.Qualifies cfg e.channel e.resolved.port e.resolved.muxPort := by
  have he : e ∈ all := by simp [hall]
  have hdone : done ⊆ all := hall ▸ List.subset_append_left done _
  refine ⟨hst.inRange e he hauto, fun hreserved => ?_, fun key claim hget hl => ?_, fun o ho => ?_⟩
  · obtain ⟨e', he', hkey, hstatic⟩ := (hst.reserved _).mp hreserved
    exact hstatic (hst.alone e he hauto e' he' hkey ▸ hauto)
  · obtain ⟨e', he', rfl, hl'⟩ := hclaims.only key claim hget
    have hkey : e'.key = e.key := Option.some.inj (hl'.symm.trans hl)
    rw [hst.alone e he hauto e' (hdone he') hkey]
    rfl
  · obtain ⟨e', he', hkey, rfl⟩ := (hst.owners _ _).mp ho
    rw [hst.alone e he hauto e' he' hkey]
    rfl

theorem qualifies_iff_not_taken (hst : Remembered cfg all st) (hclaims : ClaimsOf cfg done st)
    (hall : all = done ++ e :: todo) {n : Int}
    (hin : containsPort st.ranges n = true) (hne : n ≠ e.resolved.muxPort) :
    st.Qualifies cfg e.channel e.resolved.port n ↔ ¬ e.Taken cfg all done n := by
  have hdone : done ⊆ all := hall ▸ List.subset_append_left done _
  constructor
  · rintro h ⟨e', he', hkey, hbefore | hstatic | howner⟩
    · by_cases hauto' : e'.Auto cfg
      · obtain ⟨claim, hget, hl⟩ := hclaims.claimed e' hbefore hauto'
        have hown := h.unclaimed _ claim hget (hkey ▸ hl)
        have hsame := hst.claimKeys e (by simp [hall]) e' he' hown
        rw [hsame] at hkey
        exact hne (congrArg Prod.fst hkey).symm
      · exact h.unreserved ((hst.reserved _).mpr ⟨e', he', hkey, hauto'⟩)
    · exact h.unreserved ((hst.reserved _).mpr ⟨e', he', hkey, hstatic⟩)
    · exact howner (h.undisputed _ ((hst.owners _ _).mpr ⟨e', he', hkey, rfl⟩))
  · intro h
    refine ⟨hin, fun hreserved => ?_, fun key claim hget hl => ?_, fun o ho => ?_⟩
    · obtain ⟨e', he', hkey, hstatic⟩ := (hst.reserved _).mp hreserved
      exact h ⟨e', he', hkey, Or.inr (Or.inl hstatic)⟩
    · obtain ⟨e', he', rfl, hl'⟩ := hclaims.only key claim hget
      exact absurd ⟨e', hdone he', Option.some.inj (hl'.symm.trans hl), Or.inl he'⟩ h
    · obtain ⟨e', he', hkey, rfl⟩ := (hst.owners _ _).mp ho
      by_contra howner
      exact h ⟨e', he', hkey, Or.inr (Or.inr howner)⟩

/-- Without a claim an allocated port is given out again exactly when the search does not come to
another port first. -/
theorem allocate_served_iff (hst : Remembered cfg all st) (hclaims : ClaimsOf cfg done st)
    (hall : all = done ++ e :: todo) (hauto : e.Auto cfg) :
    (allocate cfg e.channel e.resolved.port st).1 = .ok e.resolved.muxPort ↔
      e.Foremost cfg st.ranges all done := by
  have hunclaimed : st.claimedPort e.channel e.resolved.port = none := by
    rw [claimedPort, show st.claims.get (e.channel.claimKey e.resolved.port) = none from
      get_claims_of_todo hst hclaims hall]
    rfl
  have hdue : st.Due cfg e.channel e.resolved.port e.resolved.muxPort ↔
      st.FirstQualifying cfg e.channel e.resolved.port e.resolved.muxPort := by
    simp [Due, hunclaimed]
  have hfree : ∀ n ∈ (rangePorts st.ranges).takeWhile (· ≠ e.resolved.muxPort),
      ¬ st.Qualifies cfg e.channel e.resolved.port n ↔ e.Taken cfg all done n := by
    intro n hn
    have hin := (mem_rangePorts _ _).mp (List.takeWhile_subset _ hn)
    have hne : n ≠ e.resolved.muxPort := by simpa using List.mem_takeWhile_imp hn
    rw [qualifies_iff_not_taken hst hclaims hall hin hne, not_not]
  rw [allocate_eq_ok_iff_due, hdue, firstQualifying_iff,
    and_iff_right (qualifies_served hst hclaims hall hauto)]
  exact (forall₂_congr hfree).trans ⟨fun h _ => h, fun h => h hauto⟩

theorem claimsOf_allocate (hst : Remembered cfg all st) (hclaims : ClaimsOf cfg done st)
    (hall : all = done ++ e :: todo)
    (hok : (allocate cfg e.channel e.resolved.port st).1 = .ok e.resolved.muxPort) :
    ClaimsOf cfg (done ++ [e]) (allocate cfg e.channel e.resolved.port st).2 := by
  have hnone : st.claims.get (e.channel.claimKey e.resolved.port) = none :=
    get_claims_of_todo hst hclaims hall
  obtain ⟨err, h⟩ | ⟨n, hreuse, h⟩ | ⟨n, -, -, -, h⟩ :=
    allocate_cases cfg st e.channel e.resolved.port
  · rw [h] at hok
    cases hok
  · obtain ⟨hclaimed, -⟩ := reusablePort_iff_qualifies.mp hreuse
    rw [claimedPort, hnone] at hclaimed
    cases hclaimed
  · rw [h] at hok ⊢
    obtain rfl := Except.ok.inj hok
    have hget : ∀ key, (st.setClaim (.fromChannelPort e.channel e.resolved.port) e.resolved.port.port
        e.resolved.muxPort autoPort).claims.get key = _ := get_claims_setClaim _ _ _ _
    constructor
    · intro key claim hclaim
      rw [hget] at hclaim
      split_ifs at hclaim with hkey
      · obtain rfl := Option.some.inj hclaim
        exact ⟨e, by simp, hkey, listener_ofRef _ _ _ _⟩
      · obtain ⟨e', he', hrest⟩ := hclaims.only key claim hclaim
        exact ⟨e', by simp [he'], hrest⟩
    · intro e' he' hauto
      rcases List.mem_append.mp he' with he' | he'
      · obtain ⟨claim, hclaim, hl⟩ := hclaims.claimed e' he' hauto
        refine ⟨claim, ?_, hl⟩
        rw [hget, if_neg fun hkey => ?_, hclaim]
        have hnone' : st.claims.get e'.claimKey = none := hkey ▸ hnone
        rw [hclaim] at hnone'
        cases hnone'
      · obtain rfl := List.mem_singleton.mp he'
        exact ⟨_, (hget _).trans (if_pos rfl), listener_ofRef _ _ _ _⟩

theorem claimsOf_static (hclaims : ClaimsOf cfg done st) (hstatic : ¬ e.Auto cfg) :
    ClaimsOf cfg (done ++ [e]) st := by
  constructor
  · intro key claim hget
    obtain ⟨e', he', hrest⟩ := hclaims.only key claim hget
    exact ⟨e', by simp [he'], hrest⟩
  · intro e' he' hauto
    rcases List.mem_append.mp he' with he' | he'
    · exact hclaims.claimed e' he' hauto
    · obtain rfl := List.mem_singleton.mp he'
      exact absurd hauto hstatic

end Allocation

/-! ## One channel -/

section Channel

variable {all done todo : List ServedPort} {st : MuxState}

theorem resolveChannelExternalPort_served (hserved : ServedAt cfg c explicitPorts served)
    {r : ResolvedPort} (hr : r ∈ served) (hst : Remembered cfg all st)
    (hclaims : ClaimsOf cfg done st) (todo : List ServedPort) (hall : all = done ++ ⟨c, r⟩ :: todo) :
    ((resolveChannelExternalPort (some (allocate cfg)) c explicitPorts r.port st).1 = .ok r.muxPort ↔
      ServedPort.Foremost cfg st.ranges all done ⟨c, r⟩) ∧
    ((resolveChannelExternalPort (some (allocate cfg)) c explicitPorts r.port st).1 = .ok r.muxPort →
      ClaimsOf cfg (done ++ [⟨c, r⟩])
        (resolveChannelExternalPort (some (allocate cfg)) c explicitPorts r.port st).2) ∧
    (resolveChannelExternalPort (some (allocate cfg)) c explicitPorts r.port st).2.fixed = st.fixed := by
  by_cases hauto : explicitPorts.get r.port.portName = some .auto
  · rw [resolveChannelExternalPort_auto hauto]
    have hgranted := allocate_served_iff (e := ⟨c, r⟩) hst hclaims hall
      ((auto_iff hserved.claims).mpr hauto)
    have hclaimed := claimsOf_allocate (e := ⟨c, r⟩) hst hclaims hall
    exact ⟨hgranted, hclaimed, fixed_allocate c r.port⟩
  · have hstatic : ¬ (ServedPort.mk c r).Auto cfg := fun h => hauto ((auto_iff hserved.claims).mp h)
    obtain ⟨hsame, hok⟩ := resolveChannelExternalPort_static (some (allocate cfg)) c st
      (channelPortClaims_eq_ok hserved.claims).1 hauto
    rw [hsame]
    refine ⟨iff_of_true ?_ fun h => absurd h hstatic, fun _ => claimsOf_static hclaims hstatic, rfl⟩
    exact (hok _).mpr (hserved.static r hr hauto)

/-- The declared ports that are left resolve to what they were served at exactly when each allocated
one is foremost at its turn. -/
theorem resolveDeclaredPorts_served (hserved : ServedAt cfg c explicitPorts served)
    {rest : List ResolvedPort} (hrest : rest ⊆ served) (hst : Remembered cfg all st)
    (hclaims : ClaimsOf cfg done st) (hall : all = done ++ servedBy c rest ++ todo) :
    ((resolveDeclaredPorts (allocate cfg) c explicitPorts (rest.map ResolvedPort.port) st).1 =
        .ok rest ↔
      Loop.InTurn (fun before => ServedPort.Foremost cfg st.ranges all (done ++ before))
        (servedBy c rest)) ∧
    ((resolveDeclaredPorts (allocate cfg) c explicitPorts (rest.map ResolvedPort.port) st).1 =
        .ok rest →
      ClaimsOf cfg (done ++ servedBy c rest)
        (resolveDeclaredPorts (allocate cfg) c explicitPorts (rest.map ResolvedPort.port) st).2) := by
  induction rest generalizing done st with
  | nil =>
    refine ⟨iff_of_true rfl (Loop.inTurn_nil _), fun _ => ?_⟩
    simpa [servedBy, resolveDeclaredPorts] using hclaims
  | cons r rest ih =>
    have hr : r ∈ served := hrest (by simp)
    obtain ⟨hone, hnext, hfixed⟩ := resolveChannelExternalPort_served hserved hr hst hclaims
      (servedBy c rest ++ todo) (by simp [hall, servedBy])
    have hcons : servedBy c (r :: rest) = ⟨c, r⟩ :: servedBy c rest := rfl
    rw [hcons, Loop.inTurn_cons, List.append_nil, ← hone, List.map_cons, resolveDeclaredPorts]
    rcases hres : resolveChannelExternalPort (some (allocate cfg)) c explicitPorts r.port st with
      ⟨e | n, st'⟩
    · simp
    rw [hres] at hnext hfixed
    by_cases hn : n = r.muxPort
    · subst hn
      obtain ⟨hiff, hafter⟩ := ih (fun q hq => hrest (List.mem_cons_of_mem _ hq))
        (remembered_of_fixed hst hfixed) (hnext rfl) (by simp [hall, servedBy])
      rw [ranges_of_fixed hfixed] at hiff
      simp only [List.append_assoc, List.singleton_append] at hiff hafter
      simp only [true_and, ← hiff]
      rcases htail : resolveDeclaredPorts (allocate cfg) c explicitPorts
          (rest.map ResolvedPort.port) st' with ⟨e | resolved, st''⟩
      · simp
      · rw [htail] at hafter
        refine ⟨by simp, fun h => hafter ?_⟩
        simpa using h
    · have hne : ∀ {tail : List ResolvedPort}, ⟨r.port, n⟩ :: tail ≠ r :: rest := fun h =>
        hn (congrArg ResolvedPort.muxPort (List.cons.inj h).1)
      dsimp only
      rcases htail : resolveDeclaredPorts (allocate cfg) c explicitPorts
          (rest.map ResolvedPort.port) st' with ⟨e | resolved, st''⟩
      · simp [hn]
      · simp [hn, hne]

theorem claimsOf_recordResolved (hc : c.Admitted) (hserved : ServedAt cfg c explicitPorts served)
    (hst : Remembered cfg all st) (hall : all = done ++ servedBy c served ++ todo)
    (hclaims : ClaimsOf cfg (done ++ servedBy c served) st) :
    ClaimsOf cfg (done ++ servedBy c served) (recordResolved cfg c st served) := by
  have hnodup := nodup_claimKeys hc (channelPortClaims_eq_ok hserved.claims).2 hserved.ports
  have hsub : done ++ servedBy c served ⊆ all := hall ▸ List.subset_append_left _ todo
  constructor
  · intro key claim hget
    rcases recorded_or_kept hnodup hget with ⟨r, hr, rfl, rfl⟩ | hget
    · exact ⟨⟨c, r⟩, by simp [hr], rfl, listener_recordedClaim r⟩
    · exact hclaims.only key claim hget
  · intro e he hauto
    by_cases hkey : ∃ r ∈ served, c.claimKey r.port = e.claimKey
    · obtain ⟨r, hr, hkey⟩ := hkey
      obtain rfl := hst.claimKeys e (hsub he) ⟨c, r⟩ (hsub (by simp [hr])) hkey
      exact ⟨_, get_claims_recordResolved hnodup hr, listener_recordedClaim r⟩
    · push Not at hkey
      rw [get_claims_recordResolved_ne hkey]
      exact hclaims.claimed e he hauto

end Channel

end MuxState

/-! ## The loop -/

/-- The loop has served some of the ports again, and has forgotten none of the others. -/
structure Restored (cfg : Config) (all done : List ServedPort) (s : LoopState) : Prop where
  sound : s.Sound
  remembered : Remembered cfg all s.muxState
  claims : ClaimsOf cfg done s.muxState
  owners : ∀ key o, s.portOwners.get key = some o ↔ ∃ e ∈ all, e.key = key ∧ e.owner cfg = o
  ports : s.ports = (done.map (ServedPort.toMuxPort cfg)).toFinset

section Loop

variable {all done todo : List ServedPort} {muxKey : String × String} {maxPorts : Option Int}
  {s s' : LoopState} {outcome : Outcome}

theorem owned_of_restored (hs : Restored cfg all done s)
    (hall : all = done ++ servedBy c served ++ todo) {r : ResolvedPort} (hr : r ∈ served) :
    (r.key, c.owner cfg r.port) ∈ s.registry.holds :=
  (mem_registry _ _ _).mpr ((hs.owners _ _).mpr ⟨⟨c, r⟩, by simp [hall, hr], rfl, rfl⟩)

theorem restored_accepted (hs : Restored cfg all done s) (hc : c.Admitted)
    (hserved : ServedAt cfg c explicitPorts served)
    (hall : all = done ++ servedBy c served ++ todo)
    (hclaims : ClaimsOf cfg (done ++ servedBy c served) (processChannelPorts cfg c s.muxState).2)
    (h : channelStep cfg muxKey maxPorts s c = .ok (s', .accepted served)) :
    Restored cfg all (done ++ servedBy c served) s' := by
  have hfixed : (processChannelPorts cfg c s.muxState).2.fixed = s.muxState.fixed :=
    MuxState.fixed_resolve
  obtain ⟨-, -, -, -, hstate⟩ := accepted_spec hc hs.sound.wellKeyed hs.sound.ranges h
  have hturn := acceptedTurn_of_step h
  refine ⟨sound_channelStep hs.sound h, remembered_of_fixed hs.remembered (fixed_channelStep h),
    ?_, fun key o => ?_, ?_⟩
  · rw [hstate]
    exact MuxState.claimsOf_recordResolved hc hserved (remembered_of_fixed hs.remembered hfixed) hall
      hclaims
  · -- What the channel asks for it owns already.
    have hholds : s'.registry.holds = s.registry.holds := by
      rw [hturn.holds]
      refine Set.union_eq_self_of_subset_right ?_
      rintro e ⟨r, hr, rfl⟩
      exact owned_of_restored hs hall hr
    rw [← hs.owners key o, ← mem_registry, ← mem_registry, hholds]
  · rw [hturn.ports, hs.ports, List.map_append, List.toFinset_append]
    congr 1
    simp only [servedBy, muxPortsOf, List.map_map]
    rfl

/-- The turn of a channel that fits serves it as before exactly when each of its allocated ports is
foremost at its turn. -/
theorem restored_step (hs : Restored cfg all done s) (hc : c.Admitted)
    (hserved : ServedAt cfg c explicitPorts served)
    (hall : all = done ++ servedBy c served ++ todo)
    (hfits : wouldExceedMuxPortLimit s.ports c maxPorts = false)
    (h : channelStep cfg muxKey maxPorts s c = .ok (s', outcome)) :
    (outcome = .accepted served ↔
      Loop.InTurn (fun before => ServedPort.Foremost cfg s.muxState.ranges all (done ++ before))
        (servedBy c served)) ∧
    (outcome = .accepted served → Restored cfg all (done ++ servedBy c served) s') := by
  have hprocess : processChannelPorts cfg c s.muxState = resolveDeclaredPorts
      (MuxState.allocate cfg) c explicitPorts (served.map ResolvedPort.port) s.muxState := by
    rw [processChannelPorts, resolveChannelPorts, hserved.claims, hserved.ports]
  obtain ⟨hresolved, hclaims⟩ := MuxState.resolveDeclaredPorts_served hserved
    (List.Subset.refl served) hs.remembered hs.claims hall
  rw [← hprocess] at hresolved hclaims
  have haccepted : outcome = .accepted served ↔
      (processChannelPorts cfg c s.muxState).1 = .ok served := by
    constructor
    · rintro rfl
      exact (acceptedTurn_of_step h).resolves
    · intro hresolve
      refine accepted_of_not_turnedAway h ?_ hresolve
      rintro (hexceed | haway)
      · rw [hfits] at hexceed
        cases hexceed
      · exact haway served hresolve
          (compatible_of_owned fun r hr => owned_of_restored hs hall hr)
  refine ⟨haccepted.trans hresolved, fun houtcome => ?_⟩
  have hclaims' := hclaims (haccepted.mp houtcome)
  subst houtcome
  exact restored_accepted hs hc hserved hall hclaims' h

theorem ranges_of_restored_step (h : channelStep cfg muxKey maxPorts s c = .ok (s', outcome)) :
    s'.muxState.ranges = s.muxState.ranges :=
  MuxState.ranges_of_fixed (fixed_channelStep h)

/-- A loop that remembers what was served, and has room for each channel in turn, serves all of it
again exactly when each allocated port is foremost at its turn. -/
theorem served_again_iff {expected reports : List (Channel × Outcome)} {final : LoopState}
    (hexpected : AllServed cfg expected)
    (hs : Restored cfg (servedPorts expected) [] s)
    (hfits : ∀ before c outcome after, expected = before ++ (c, outcome) :: after →
      wouldExceedMuxPortLimit (acceptedMuxPorts cfg before).toFinset c maxPorts = false)
    (h : Loop.run (channelStep cfg muxKey maxPorts) (expected.map Prod.fst) s =
      .ok (final, reports)) :
    reports = expected ↔
      Loop.InTurn (ServedPort.Foremost cfg s.muxState.ranges (servedPorts expected))
        (servedPorts expected) := by
  let I := fun (done : List (Channel × Outcome)) (s' : LoopState) =>
    Restored cfg (servedPorts expected) (servedPorts done) s' ∧
      s'.muxState.ranges = s.muxState.ranges
  let P := fun (done : List (Channel × Outcome)) (report : Channel × Outcome) =>
    Loop.InTurn (fun before => ServedPort.Foremost cfg s.muxState.ranges (servedPorts expected)
      (servedPorts done ++ before)) (reportedServed report)
  have hturns : Loop.InTurn (ServedPort.Foremost cfg s.muxState.ranges (servedPorts expected))
      (servedPorts expected) ↔ Loop.InTurn P expected := Loop.inTurn_flatMap
  rw [hturns]
  refine Loop.run_eq_log_iff I P ⟨hs, rfl⟩ ?_ h
  rintro done c outcome rest s₁ s₂ outcome' hsplit ⟨hrestored, hranges⟩ hstep
  have hreport : (c, outcome) ∈ expected := by simp [hsplit]
  have hc := hexpected.admitted _ hreport
  obtain ⟨explicitPorts, served, houtcome, hserved⟩ := hexpected.served _ hreport
  dsimp only at houtcome
  subst houtcome
  have hall : servedPorts expected =
      servedPorts done ++ servedBy c served ++ servedPorts rest := by
    simp [hsplit, servedPorts, reportedServed]
  have hports : s₁.ports = (acceptedMuxPorts cfg done).toFinset := by
    rw [hrestored.ports, map_toMuxPort_servedPorts]
  obtain ⟨hiff, hnext⟩ := restored_step hrestored hc hserved hall
    (hports ▸ hfits done c _ rest hsplit) hstep
  rw [hranges] at hiff
  refine ⟨hiff, fun hsame => ⟨?_, (ranges_of_restored_step hstep).trans hranges⟩⟩
  have hdone : servedPorts (done ++ [(c, Outcome.accepted served)]) =
      servedPorts done ++ servedBy c served := by
    simp [servedPorts, reportedServed]
  exact hdone ▸ hnext hsame

end Loop

end SvcLbMux
