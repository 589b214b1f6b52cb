import SvcLbMux.HeldPorts

namespace SvcLbMux

open Py

variable {cfg : Config}

/-- Neither the mux ports, nor the stored claims, nor a channel have changed. -/
structure Unchanged (input next : PassInput) : Prop where
  muxPorts : oldMuxPorts next.mux.ports = oldMuxPorts input.mux.ports
  configmap : next.configmap = input.configmap
  channels : next.channels.Perm input.channels

/-- A pass finds what the one over `input` has left. A pass that raises over the mux ports or the
annotations does so before it writes. One that raises over the Endpoints of a channel, when it may
have patched channels, is not considered. -/
inductive NextPass (cfg : Config) (input next : PassInput) : Prop
  | passed (r : PassResult) (hpass : muxPass cfg input = .ok r) (hfollows : Follows cfg input r next)
  | raised (e : PyError) (hpass : muxPass cfg input = .error e) (hsame : Unchanged input next)

theorem readable_of_unchanged {input next : PassInput} (h : Unchanged input next) :
    Readable cfg next ↔ Readable cfg input := by
  unfold Readable
  rw [← oldMuxPorts_ok_iff, ← oldMuxPorts_ok_iff, h.muxPorts]
  simp only [h.channels.mem_iff]

section Next

variable {input next : AdmittedPass} (h : NextPass cfg input.toPassInput next.toPassInput)

include h

theorem NextPass.of_readable (hreadable : Readable cfg input.toPassInput) :
    ∃ r, muxPass cfg input.toPassInput = .ok r ∧
      Follows cfg input.toPassInput r next.toPassInput := by
  obtain ⟨r', hpass'⟩ := input.muxPass_ok_iff.mpr hreadable
  rcases h with ⟨r, hpass, hfollows⟩ | ⟨e, hraised, -⟩
  · exact ⟨r, hpass, hfollows⟩
  · rw [hraised] at hpass'
    cases hpass'

theorem NextPass.of_unreadable (hreadable : ¬ Readable cfg input.toPassInput) :
    Unchanged input.toPassInput next.toPassInput := by
  rcases h with ⟨r, hpass, -⟩ | ⟨-, -, hsame⟩
  · exact absurd (input.muxPass_ok_iff.mp ⟨r, hpass⟩) hreadable
  · exact hsame

end Next

theorem exists_nextPass (cfg : Config) (input : AdmittedPass) :
    ∃ next : AdmittedPass, NextPass cfg input.toPassInput next.toPassInput := by
  cases hpass : muxPass cfg input.toPassInput with
  | ok r =>
    obtain ⟨next, hfollows⟩ := exists_follows hpass
    exact ⟨next, .passed r hpass hfollows⟩
  | error e => exact ⟨input, .raised e hpass ⟨rfl, rfl, .refl _⟩⟩

/-! ## Established channels -/

def establishedKeys (cfg : Config) (input : AdmittedPass) : Set (String × String) :=
  {k | ∃ c explicitPorts served, c.key = k ∧
    Established cfg input.toPassInput c explicitPorts served}

section Step

variable {input next : AdmittedPass} {r : PassResult} {c : Channel} {served : List ResolvedPort}

theorem keys_next (hpass : muxPass cfg input.toPassInput = .ok r)
    (hfollows : Follows cfg input.toPassInput r next.toPassInput) :
    (next.channels.map Channel.key).Perm (input.channels.map Channel.key) := by
  refine (hfollows.channels.map _).trans ?_
  rw [map_key_channelAfter hpass]
  exact (perm_sortBy _ _).map _

theorem establishedKeys_next (hready : Ready cfg input)
    (hpass : muxPass cfg input.toPassInput = .ok r)
    (hfollows : Follows cfg input.toPassInput r next.toPassInput) :
    establishedKeys cfg input ⊆ establishedKeys cfg next := by
  rintro k ⟨c, explicitPorts, served, rfl, h⟩
  exact ⟨c, explicitPorts, served, rfl, established_next hready hpass hfollows h⟩

/-- A pass after which no more channels are established accepts established ones only. -/
theorem established_of_keys_eq (hready : Ready cfg input)
    (hpass : muxPass cfg input.toPassInput = .ok r)
    (hfollows : Follows cfg input.toPassInput r next.toPassInput)
    (hkeys : establishedKeys cfg next = establishedKeys cfg input)
    (hreport : (c, Outcome.accepted served) ∈ r.reports) :
    ∃ explicitPorts, Established cfg input.toPassInput c explicitPorts served := by
  obtain ⟨explicitPorts', hnext⟩ := established_of_accepted hready hpass hfollows hreport
  have hkey : c.key ∈ establishedKeys cfg input := by
    rw [← hkeys]
    exact ⟨_, explicitPorts', served, key_channelAfter _, hnext⟩
  obtain ⟨d, explicitPorts, served', hd, h⟩ := hkey
  obtain rfl := input.eq_of_key_eq h.mem (input.mem_channels_of_mem_reports hpass hreport) hd
  obtain rfl := served_eq_of_established hpass h hreport
  exact ⟨explicitPorts, h⟩

theorem channels_of_keys_eq (hready : Ready cfg input)
    (hpass : muxPass cfg input.toPassInput = .ok r)
    (hfollows : Follows cfg input.toPassInput r next.toPassInput)
    (hkeys : establishedKeys cfg next = establishedKeys cfg input) :
    next.channels.Perm input.channels := by
  obtain ⟨start, -, hrun, -⟩ := muxPass_eq_ok hpass
  have hsame : r.reports.map (channelAfter cfg) = sortChannels input.channels := by
    rw [← Loop.map_fst_run hrun]
    refine List.map_congr_left fun ⟨c, outcome⟩ hreport => ?_
    cases outcome with
    | rejected rejection => rfl
    | accepted served =>
      obtain ⟨explicitPorts, h⟩ := established_of_keys_eq hready hpass hfollows hkeys hreport
      exact channelAfter_of_steady h.toSteady
  exact hfollows.channels.trans (hsame ▸ perm_sortBy _ _)

theorem sortChannels_of_perm (h : next.channels.Perm input.channels) :
    sortChannels next.channels = sortChannels input.channels :=
  next.sortChannels_eq (h.trans (perm_sortBy _ _).symm) (pairwise_sortBy channelSortKey _)

end Step

/-! ## Passes that all end -/

/-- A run of passes that end, each over what the one before has left. -/
structure EndingRun (cfg : Config) (passes : ℕ → AdmittedPass) (results : ℕ → PassResult) :
    Prop where
  ready : ∀ t, Ready cfg (passes t)
  pass : ∀ t, muxPass cfg (passes t).toPassInput = .ok (results t)
  follows : ∀ t, Follows cfg (passes t).toPassInput (results t) (passes (t + 1)).toPassInput

/-- From pass `N` on no more channels become established. -/
def NoMoreEstablished (cfg : Config) (passes : ℕ → AdmittedPass) (N : ℕ) : Prop :=
  ∀ t, N ≤ t → establishedKeys cfg (passes t) = establishedKeys cfg (passes N)

section Run

variable {passes : ℕ → AdmittedPass} {results : ℕ → PassResult} {N : ℕ}

theorem NoMoreEstablished.keys_succ (hstable : NoMoreEstablished cfg passes N) {t : ℕ} (ht : N ≤ t) :
    establishedKeys cfg (passes (t + 1)) = establishedKeys cfg (passes t) :=
  (hstable (t + 1) (by omega)).trans (hstable t ht).symm

namespace EndingRun

theorem exists_noMoreEstablished (run : EndingRun cfg passes results) :
    ∃ N, NoMoreEstablished cfg passes N := by
  have hkeys : ∀ t, ((passes t).channels.map Channel.key).Perm
      ((passes 0).channels.map Channel.key) := by
    intro t
    induction t with
    | zero => exact .refl _
    | succ t ih => exact (keys_next (run.pass t) (run.follows t)).trans ih
  refine Growing.exists_eq (List.finite_toSet ((passes 0).channels.map Channel.key))
    (fun t => ?_) fun t => establishedKeys_next (run.ready t) (run.pass t) (run.follows t)
  rintro k ⟨c, explicitPorts, served, rfl, h⟩
  exact (hkeys t).subset (List.mem_map_of_mem h.mem)

theorem established_mono (run : EndingRun cfg passes results) {t u : ℕ} (htu : t ≤ u)
    {c : Channel} {explicitPorts : Dict String PortRequest} {served : List ResolvedPort}
    (h : Established cfg (passes t).toPassInput c explicitPorts served) :
    Established cfg (passes u).toPassInput c explicitPorts served := by
  induction u, htu using Nat.le_induction with
  | base => exact h
  | succ u _ ih => exact established_next (run.ready u) (run.pass u) (run.follows u) ih

theorem limit_eq (run : EndingRun cfg passes results) (t : ℕ) :
    (muxPortLimit cfg (passes t).mux).1 = (muxPortLimit cfg (passes 0).mux).1 := by
  induction t with
  | zero => rfl
  | succ t ih => exact (run.follows t).limit.trans ih

variable (run : EndingRun cfg passes results) (hstable : NoMoreEstablished cfg passes N) {t : ℕ}
  (ht : N ≤ t)

include run hstable ht

theorem channels_succ : (passes (t + 1)).channels.Perm (passes t).channels :=
  channels_of_keys_eq (run.ready t) (run.pass t) (run.follows t) (hstable.keys_succ ht)

theorem channels_perm : (passes t).channels.Perm (passes N).channels := by
  induction t, ht using Nat.le_induction with
  | base => exact .refl _
  | succ t ht ih => exact (run.channels_succ hstable ht).trans ih

theorem established_of_reports {c : Channel} {served : List ResolvedPort}
    (hreport : (c, Outcome.accepted served) ∈ (results t).reports) :
    ∃ explicitPorts, Established cfg (passes N).toPassInput c explicitPorts served := by
  obtain ⟨explicitPorts, h⟩ := established_of_keys_eq (run.ready t) (run.pass t) (run.follows t)
    (hstable.keys_succ ht) hreport
  have hkey : c.key ∈ establishedKeys cfg (passes N) := by
    rw [← hstable t ht]
    exact ⟨c, explicitPorts, served, rfl, h⟩
  obtain ⟨d, explicitPorts', served', hd, h'⟩ := hkey
  have hmem := (run.channels_perm hstable ht).mem_iff.mp h.mem
  obtain rfl := (passes N).eq_of_key_eq h'.mem hmem hd
  obtain rfl := served_eq_of_established (run.pass t) (run.established_mono ht h') hreport
  exact ⟨explicitPorts', h'⟩

theorem sortChannels_eq : sortChannels (passes t).channels = sortChannels (passes N).channels :=
  sortChannels_of_perm (run.channels_perm hstable ht)

theorem same_choice : (results t).final.ports = (results N).final.ports ∧
    ∀ c served, (c, Outcome.accepted served) ∈ (results t).reports ↔
      (c, Outcome.accepted served) ∈ (results N).reports := by
  classical
  let assigned := fun c : Channel =>
    if h : ∃ served explicitPorts,
        Established cfg (passes N).toPassInput c explicitPorts served then some h.choose else none
  have hassigned : ∀ c served, assigned c = some served →
      ∃ explicitPorts, Established cfg (passes N).toPassInput c explicitPorts served := by
    intro c served hc
    obtain ⟨h, hserved⟩ := Option.dite_none_right_eq_some.mp hc
    obtain rfl : h.choose = served := Option.some.inj hserved
    exact h.choose_spec
  have hgreedy : ∀ u, N ≤ u →
      Loop.run (greedyStep cfg (muxPortLimit cfg (passes N).mux).1 assigned)
        (sortChannels (passes N).channels) ∅ =
      .ok ((results u).final.ports,
        (results u).reports.map fun report => (report.1, report.2.acceptedPorts)) := by
    intro u hu
    rw [run.limit_eq N, ← run.limit_eq u, ← run.sortChannels_eq hstable hu]
    refine greedy_of_pass (run.pass u) (fun c served hc => ?_) fun c served hreport => ?_
    · obtain ⟨explicitPorts, h⟩ := hassigned c served hc
      exact ⟨explicitPorts, run.established_mono hu h⟩
    · obtain ⟨explicitPorts, h⟩ := run.established_of_reports hstable hu hreport
      have hsome : ∃ served explicitPorts,
          Established cfg (passes N).toPassInput c explicitPorts served := ⟨served, explicitPorts, h⟩
      obtain ⟨explicitPorts', h'⟩ := hsome.choose_spec
      rw [served_eq_of_established (run.pass u) (run.established_mono hu h') hreport]
      exact dif_pos hsome
  have hsame := (hgreedy t ht).symm.trans (hgreedy N le_rfl)
  rw [Except.ok.injEq, Prod.mk.injEq] at hsame
  refine ⟨hsame.1, fun c served => ?_⟩
  rw [← mem_map_acceptedPorts, ← mem_map_acceptedPorts, hsame.2]

theorem muxPorts_eq : (results t).muxPorts = (results N).muxPorts := by
  obtain ⟨-, -, -, hports, -⟩ := muxPass_eq_ok (run.pass t)
  obtain ⟨-, -, -, hports', -⟩ := muxPass_eq_ok (run.pass N)
  rw [hports, hports', (run.same_choice hstable ht).1]

theorem oldMuxPorts_succ :
    oldMuxPorts (passes (t + 1)).mux.ports = .ok (results (t + 1)).muxPorts := by
  rw [(run.follows t).muxPorts, run.muxPorts_eq hstable ht,
    run.muxPorts_eq hstable (ht.trans t.le_succ)]

theorem gainsHeld_succ {start : PassStart}
    (hstart : passStart cfg (passes (t + 1)).toPassInput = .ok start) :
    GainsHeld cfg (passes (t + 1)).channels start.loop.muxState (results (t + 1)).final.muxState := by
  have hclaims := (claims_next (run.ready t) (run.pass t) (run.follows t) hstart).1
  refine gainsHeld_of_pass (run.pass (t + 1)) hstart (fun c served hreport => ?_)
    fun c served hreport p hp => ?_
  · exact established_of_keys_eq (run.ready _) (run.pass _) (run.follows _)
      (hstable.keys_succ (ht.trans t.le_succ)) hreport
  · have hreport' : (c, Outcome.accepted served) ∈ (results t).reports :=
      ((run.same_choice hstable ht).2 c served).mpr
        (((run.same_choice hstable (ht.trans t.le_succ)).2 c served).mp hreport)
    exact (hclaims _).trans (accepted_claims (run.pass t) hreport' hp)

omit ht in
theorem exists_unchanged : ∃ M, ∀ t, M ≤ t →
    Unchanged (passes t).toPassInput (passes (t + 1)).toPassInput := by
  choose starts hstarts using fun t => (muxPass_eq_ok (run.pass t)).imp fun _ h => h.1
  let held := fun t => heldPorts cfg (passes t).channels (starts t).loop.muxState
  have hnext : ∀ t, N ≤ t → held (t + 2) =
      heldPorts cfg (passes (t + 1)).channels (results (t + 1)).final.muxState := by
    intro t ht
    have hperm := run.channels_succ hstable (ht.trans t.le_succ)
    have hheld := heldPorts_next (run.ready _) (run.pass (t + 1)) (run.follows _) (hstarts _)
      (hstarts _) (sortChannels_of_perm hperm) (run.oldMuxPorts_succ hstable ht)
    exact (hheld _).trans (heldPorts_of_perm hperm _)
  have hbound : ∀ t, N + 1 ≤ t →
      held t ⊆ {e | e.1 ∈ (passes N).channels ∧ e.2 ∈ e.1.ports} := by
    rintro t ht ⟨c, p⟩ ⟨hc, hp, -⟩
    exact ⟨(run.channels_perm hstable (by omega)).subset hc, hp⟩
  have hgrow : ∀ t, N + 1 ≤ t → held t ⊆ held (t + 1) := by
    intro t ht
    obtain ⟨t, rfl⟩ := Nat.exists_eq_succ_of_ne_zero (by omega : t ≠ 0)
    rw [hnext t (by omega)]
    exact (run.gainsHeld_succ hstable (by omega) (hstarts _)).kept
  obtain ⟨M, hM, hconst⟩ := Growing.exists_eq_from (N + 1) (finite_heldPorts _) hbound hgrow
  refine ⟨M, fun t ht => ?_⟩
  obtain ⟨t, rfl⟩ := Nat.exists_eq_succ_of_ne_zero (by omega : t ≠ 0)
  have hsame : (results (t + 1)).final.muxState = (starts (t + 1)).loop.muxState := by
    rcases (run.gainsHeld_succ hstable (by omega : N ≤ t) (hstarts _)).gained with h | ⟨e, he, hnot⟩
    · exact h
    · rw [← hnext t (by omega), hconst (t + 2) (by omega), ← hconst (t + 1) ht] at he
      exact absurd he hnot
  refine ⟨?_, ?_, run.channels_succ hstable (by omega)⟩
  · exact (run.follows (t + 1)).muxPorts.trans (run.oldMuxPorts_succ hstable (by omega)).symm
  · rw [(run.follows _).configmap]
    exact configmap_next (run.ready t) (run.pass t) (run.follows t) (run.pass _) (hstarts _) hsame

end EndingRun

end Run

/-! ## The main result -/

/-- With a working store, stored claims on distinct listeners and no colliding digests, whatever the
mux ports and the `ports` annotations are at first, from some pass on no pass changes the mux ports,
the claims or a channel. -/
theorem reconciliation_settles (cfg : Config) (passes : ℕ → AdmittedPass)
    (hnext : ∀ t, NextPass cfg (passes t).toPassInput (passes (t + 1)).toPassInput)
    (hready : Ready cfg (passes 0)) :
    ∃ N, ∀ t, N ≤ t → Unchanged (passes t).toPassInput (passes (t + 1)).toPassInput := by
  by_cases hreadable : Readable cfg (passes 0).toPassInput
  · have hinv : ∀ t, Ready cfg (passes t) ∧ Readable cfg (passes t).toPassInput := by
      intro t
      induction t with
      | zero => exact ⟨hready, hreadable⟩
      | succ t ih =>
        obtain ⟨r, hpass, hfollows⟩ := (hnext t).of_readable ih.2
        exact ⟨ready_next ih.1 hpass hfollows, readable_next hpass hfollows⟩
    choose results hresults using fun t => (hnext t).of_readable (hinv t).2
    have run : EndingRun cfg passes results :=
      ⟨fun t => (hinv t).1, fun t => (hresults t).1, fun t => (hresults t).2⟩
    obtain ⟨N, hstable⟩ := run.exists_noMoreEstablished
    exact run.exists_unchanged hstable
  · have hinv : ∀ t, ¬ Readable cfg (passes t).toPassInput := by
      intro t
      induction t with
      | zero => exact hreadable
      | succ t ih => rwa [readable_of_unchanged ((hnext t).of_unreadable ih)]
    exact ⟨0, fun t _ => (hnext t).of_unreadable (hinv t)⟩

/-- The passes that come after one another from this one on. -/
noncomputable def passesFrom (cfg : Config) (input : AdmittedPass) : ℕ → AdmittedPass
  | 0 => input
  | t + 1 => (exists_nextPass cfg (passesFrom cfg input t)).choose

theorem nextPass_passesFrom (input : AdmittedPass) (t : ℕ) :
    NextPass cfg (passesFrom cfg input t).toPassInput (passesFrom cfg input (t + 1)).toPassInput :=
  (exists_nextPass cfg (passesFrom cfg input t)).choose_spec

/-- The run starts without a ConfigMap, from a channel that is rejected over a port of its own. -/
theorem reconciliation_settles_conflictedPass :
    ∃ passes : ℕ → AdmittedPass, passes 0 = conflictedPass ∧
      (∀ t, NextPass sampleConfig (passes t).toPassInput (passes (t + 1)).toPassInput) ∧
      ∃ N, ∀ t, N ≤ t → Unchanged (passes t).toPassInput (passes (t + 1)).toPassInput := by
  have hready : Ready sampleConfig conflictedPass := by
    refine ⟨?_, ⟨none, rfl⟩, List.Pairwise.nil⟩
    unfold DigestInjectiveOn
    decide +kernel
  exact ⟨passesFrom sampleConfig conflictedPass, rfl, nextPass_passesFrom conflictedPass,
    reconciliation_settles sampleConfig _ (nextPass_passesFrom conflictedPass) hready⟩

end SvcLbMux
