import SvcLbMux.Pass

namespace SvcLbMux

open Py

namespace MuxState

/-- A port of the ranges that nobody else has a right to. -/
structure Qualifies (cfg : Config) (st : MuxState) (c : Channel) (p : ServicePort) (port : Int) :
    Prop where
  inRange : containsPort st.ranges port = true
  unreserved : (port, p.protocolOrTcp) ∉ st.reservedPorts
  unclaimed : ∀ key claim, st.claims.get key = some claim →
    claim.listener = some (port, p.protocolOrTcp) → key = c.claimKey p
  undisputed : ∀ o, st.reservedPortOwners.get (port, p.protocolOrTcp) = some o → o = c.owner cfg p

/-- The port of the claim that a channel port has. -/
def claimedPort (st : MuxState) (c : Channel) (p : ServicePort) : Option Int :=
  (st.claims.get (c.claimKey p)).bind claimMuxPort

/-- The first port that qualifies, in the order of the ranges. -/
def FirstQualifying (cfg : Config) (st : MuxState) (c : Channel) (p : ServicePort) (port : Int) :
    Prop :=
  st.Qualifies cfg c p port ∧ ∃ before after, rangePorts st.ranges = before ++ port :: after ∧
    ∀ m ∈ before, ¬ st.Qualifies cfg c p m

/-- The claimed port while it qualifies, else the first port that does. -/
def Due (cfg : Config) (st : MuxState) (c : Channel) (p : ServicePort) (port : Int) : Prop :=
  (st.claimedPort c p = some port ∧ st.Qualifies cfg c p port) ∨
    (∀ m, st.claimedPort c p = some m → ¬ st.Qualifies cfg c p m) ∧
      st.FirstQualifying cfg c p port

variable {cfg : Config} {st : MuxState} {c : Channel} {p : ServicePort}

theorem claimedPort_eq_some_iff {port : Int} :
    st.claimedPort c p = some port ↔
      ∃ claim, st.claims.get (c.claimKey p) = some claim ∧ claimMuxPort claim = some port :=
  Option.bind_eq_some_iff

theorem reusablePort_iff_qualifies {port : Int} :
    st.reusablePort cfg (.fromChannelPort c p) = some port ↔
      st.claimedPort c p = some port ∧ st.Qualifies cfg c p port := by
  rw [reusablePort_eq_some_iff, isClaimed_eq_false_iff, refOwner_fromChannelPort,
    claimedPort_eq_some_iff]
  refine and_congr_right fun _ => ⟨?_, ?_⟩
  · rintro ⟨hin, hunclaimed, hunreserved, hundisputed⟩
    exact ⟨hin, hunreserved, hunclaimed, hundisputed⟩
  · rintro ⟨hin, hunreserved, hunclaimed, hundisputed⟩
    exact ⟨hin, hunclaimed, hunreserved, hundisputed⟩

/-- The test of the search, once the existing claim is given up: a stale claim of the port itself
is on no port that qualifies. -/
theorem notMem_used_iff_qualifies (hstale : st.reusablePort cfg (.fromChannelPort c p) = none)
    {port : Int} (hin : containsPort st.ranges port = true) :
    (port, p.protocolOrTcp) ∉ st.usedPortProtocols (c.owner cfg p) ↔
      st.Qualifies cfg c p port := by
  rw [mem_usedPortProtocols]
  push Not
  constructor
  · rintro ⟨hunreserved, hundisputed, hunclaimed⟩
    exact ⟨hin, hunreserved, fun key claim hget hl => absurd hl (hunclaimed key claim hget),
      hundisputed⟩
  · intro h
    refine ⟨h.unreserved, h.undisputed, fun key claim hget hl => ?_⟩
    obtain rfl := h.unclaimed key claim hget hl
    have hclaimed : st.claimedPort c p = some port :=
      claimedPort_eq_some_iff.mpr ⟨claim, hget, (listener_eq_some_iff.mp hl).1⟩
    rw [reusablePort_iff_qualifies.mpr ⟨hclaimed, h⟩] at hstale
    cases hstale

theorem nextAvailablePort_iff_firstQualifying
    (hstale : st.reusablePort cfg (.fromChannelPort c p) = none) {port : Int} :
    st.nextAvailablePort p.protocolOrTcp (c.owner cfg p) = .ok port ↔
      st.FirstQualifying cfg c p port := by
  have hmem : ∀ m ∈ rangePorts st.ranges, containsPort st.ranges m = true :=
    fun m => (mem_rangePorts st.ranges m).mp
  rw [nextAvailablePort_eq_ok_iff, List.find?_eq_some_iff_append]
  simp only [decide_eq_true_eq, Bool.not_eq_true', decide_eq_false_iff_not]
  constructor
  · rintro ⟨hfree, before, after, hsplit, hbefore⟩
    rw [hsplit] at hmem
    refine ⟨(notMem_used_iff_qualifies hstale (hmem port (by simp))).mp hfree, before, after, hsplit,
      fun m hm => ?_⟩
    exact fun h => hbefore m hm ((notMem_used_iff_qualifies hstale h.inRange).mpr h)
  · rintro ⟨hqualifies, before, after, hsplit, hbefore⟩
    rw [hsplit] at hmem
    refine ⟨(notMem_used_iff_qualifies hstale hqualifies.inRange).mpr hqualifies, before, after,
      hsplit, fun m hm => ?_⟩
    exact fun h => hbefore m hm ((notMem_used_iff_qualifies hstale (hmem m (by simp [hm]))).mp h)

/-- The first port that qualifies is the one that the search comes to when none did before. -/
theorem firstQualifying_iff {port : Int} :
    st.FirstQualifying cfg c p port ↔ st.Qualifies cfg c p port ∧
      ∀ m ∈ (rangePorts st.ranges).takeWhile (· ≠ port), ¬ st.Qualifies cfg c p m := by
  constructor
  · rintro ⟨hqualifies, before, after, hsplit, hbefore⟩
    refine ⟨hqualifies, fun m hm => hbefore m ?_⟩
    have hne : ∀ m ∈ before, decide (m ≠ port) = true := fun m hm => by
      rw [decide_eq_true_eq]
      exact fun heq => hbefore m hm (heq ▸ hqualifies)
    rw [hsplit, List.takeWhile_append_of_pos hne] at hm
    simpa using hm
  · rintro ⟨hqualifies, hbefore⟩
    refine ⟨hqualifies, (rangePorts st.ranges).takeWhile (· ≠ port), ?_⟩
    cases hrest : (rangePorts st.ranges).dropWhile (· ≠ port) with
    | nil =>
      have hall := List.dropWhile_eq_nil_iff.mp hrest port
        ((mem_rangePorts _ _).mpr hqualifies.inRange)
      simp at hall
    | cons m after =>
      have hne : (rangePorts st.ranges).dropWhile (· ≠ port) ≠ [] := by
        rw [hrest]
        exact List.cons_ne_nil _ _
      have hm := List.head_dropWhile_not _ hne
      simp only [hrest, List.head_cons, decide_eq_false_iff_not, not_not] at hm
      subst hm
      exact ⟨after, by rw [← hrest, List.takeWhile_append_dropWhile], hbefore⟩

/-- `allocate` grants what is due. -/
theorem allocate_eq_ok_iff_due {port : Int} :
    (allocate cfg c p st).1 = .ok port ↔ st.Due cfg c p port := by
  cases hreuse : st.reusablePort cfg (.fromChannelPort c p) with
  | some m =>
    obtain ⟨hclaimed, hqualifies⟩ := reusablePort_iff_qualifies.mp hreuse
    rw [allocate_of_reusablePort hreuse]
    constructor
    · intro h
      obtain rfl := Except.ok.inj h
      exact Or.inl ⟨hclaimed, hqualifies⟩
    · rintro (⟨hclaimed', -⟩ | ⟨hgivenUp, -⟩)
      · rw [Option.some.inj (hclaimed.symm.trans hclaimed')]
      · exact absurd hqualifies (hgivenUp m hclaimed)
  | none =>
    have hgivenUp : ∀ m, st.claimedPort c p = some m → ¬ st.Qualifies cfg c p m :=
      fun m hclaimed hqualifies => by
        rw [reusablePort_iff_qualifies.mpr ⟨hclaimed, hqualifies⟩] at hreuse
        cases hreuse
    have hsearch : (allocate cfg c p st).1 = .ok port ↔
        st.nextAvailablePort p.protocolOrTcp (c.owner cfg p) = .ok port := by
      unfold allocate
      split_ifs with hranges
      · have hnothing : rangePorts st.ranges = [] := by rw [List.isEmpty_iff.mp hranges]; rfl
        simp [nextAvailablePort, hnothing]
      · have hprotocol : (PortAllocationRef.fromChannelPort c p).protocol = p.protocolOrTcp := rfl
        simp only [hreuse, refOwner_fromChannelPort, hprotocol]
        cases st.nextAvailablePort p.protocolOrTcp (c.owner cfg p) with
        | error e => simp
        | ok m => simp
    rw [hsearch, nextAvailablePort_iff_firstQualifying hreuse]
    constructor
    · exact fun h => Or.inr ⟨hgivenUp, h⟩
    · rintro (⟨hclaimed, hqualifies⟩ | ⟨-, h⟩)
      · exact absurd hqualifies (hgivenUp port hclaimed)
      · exact h

theorem claimedPort_allocate {port : Int} (h : (allocate cfg c p st).1 = .ok port) :
    (allocate cfg c p st).2.claimedPort c p = some port := by
  obtain ⟨e, ha⟩ | ⟨n, hreuse, ha⟩ | ⟨n, -, -, -, ha⟩ := allocate_cases cfg st c p
  · simp [ha] at h
  · rw [ha] at h ⊢
    obtain rfl := Except.ok.inj h
    exact (reusablePort_iff_qualifies.mp hreuse).1
  · rw [ha] at h ⊢
    obtain rfl := Except.ok.inj h
    refine claimedPort_eq_some_iff.mpr
      ⟨Claim.ofRef (.fromChannelPort c p) p.port n autoPort, ?_, claimMuxPort_ofRef _ _ _ _⟩
    rw [get_claims_setClaim]
    exact if_pos rfl

theorem qualifies_of_due {port : Int} (h : st.Due cfg c p port) : st.Qualifies cfg c p port :=
  h.elim And.right fun h => h.2.1

theorem exists_due {port : Int} (h : st.Qualifies cfg c p port) : ∃ n, st.Due cfg c p n := by
  cases hreuse : st.reusablePort cfg (.fromChannelPort c p) with
  | some m => exact ⟨m, Or.inl (reusablePort_iff_qualifies.mp hreuse)⟩
  | none =>
    have hfound : ((rangePorts st.ranges).find? fun m =>
        (m, p.protocolOrTcp) ∉ st.usedPortProtocols (c.owner cfg p)).isSome := by
      rw [List.find?_isSome]
      refine ⟨port, (mem_rangePorts _ _).mpr h.inRange, ?_⟩
      exact decide_eq_true ((notMem_used_iff_qualifies hreuse h.inRange).mpr h)
    obtain ⟨n, hn⟩ := Option.isSome_iff_exists.mp hfound
    refine ⟨n, Or.inr ⟨fun m hclaimed hqualifies => ?_,
      (nextAvailablePort_iff_firstQualifying hreuse).mp (nextAvailablePort_eq_ok_iff.mpr hn)⟩⟩
    rw [reusablePort_iff_qualifies.mpr ⟨hclaimed, hqualifies⟩] at hreuse
    cases hreuse

/-- Sound and complete: a port is granted exactly when one qualifies, it is the claimed one as long
as that qualifies and else the first that does, and no other claim changes. -/
theorem allocate_sound_and_complete (cfg : Config) (st : MuxState) (c : Channel) (p : ServicePort) :
    ((∃ port, (allocate cfg c p st).1 = .ok port) ↔ ∃ port, st.Qualifies cfg c p port) ∧
    (∀ port, (allocate cfg c p st).1 = .ok port →
      st.Qualifies cfg c p port ∧
      (allocate cfg c p st).2.claimedPort c p = some port ∧
      (∀ m, st.claimedPort c p = some m → st.Qualifies cfg c p m → port = m) ∧
      ((∀ m, st.claimedPort c p = some m → ¬ st.Qualifies cfg c p m) →
        st.FirstQualifying cfg c p port)) ∧
    ∀ key, key ≠ c.claimKey p → (allocate cfg c p st).2.claims.get key = st.claims.get key := by
  refine ⟨⟨?_, ?_⟩, fun port h => ?_, fun key hkey => get_claims_allocate_ne c p hkey.symm⟩
  · rintro ⟨port, h⟩
    exact ⟨port, qualifies_of_due (allocate_eq_ok_iff_due.mp h)⟩
  · rintro ⟨port, h⟩
    obtain ⟨n, hn⟩ := exists_due h
    exact ⟨n, allocate_eq_ok_iff_due.mpr hn⟩
  · have hdue := allocate_eq_ok_iff_due.mp h
    refine ⟨qualifies_of_due hdue, claimedPort_allocate h, fun m hclaimed hqualifies => ?_, ?_⟩
    · rcases hdue with ⟨hclaimed', -⟩ | ⟨hgivenUp, -⟩
      · exact Option.some.inj (hclaimed'.symm.trans hclaimed)
      · exact absurd hqualifies (hgivenUp m hclaimed)
    · intro hgivenUp
      rcases hdue with ⟨hclaimed, hqualifies⟩ | ⟨-, hfirst⟩
      · exact absurd hqualifies (hgivenUp port hclaimed)
      · exact hfirst

/-! ## Persisted claims and recovered owners -/

section Recovered

variable {state : Option StateDoc} {channels : List Channel}

theorem persisted_claim_init (cfg : Config) (muxKey : String × String) (ranges : List (Int × Int))
    (reservedPorts : Finset PortKey) (recovered : Dict PortKey String) (hc : c ∈ channels)
    (hadmitted : c.Admitted) (hp : p ∈ c.ports) (hnamed : p.unnamed = false) {claim : Claim}
    (hclaim : (claimsByKey (stateClaims state)).get (c.claimKey p) = some claim) {port : Int}
    (hport : claimMuxPort claim = some port) :
    (init muxKey ranges state channels reservedPorts recovered).claims.get (c.claimKey p) =
        some claim ∧
      claim.listener = some (port, p.protocolOrTcp) ∧ claimOwner cfg claim = c.owner cfg p := by
  have hget : (init muxKey ranges state channels reservedPorts recovered).claims.get (c.claimKey p) =
      some claim := by
    rw [get_claims_init, if_pos (mem_activeClaimKeys.mpr ⟨c, hc, p, hp, hnamed, rfl⟩), hclaim]
  obtain ⟨howner, hprotocol⟩ := claimOwner_of_claimKey cfg wellKeyed_init hadmitted hp hget
  exact ⟨hget, listener_eq_some_iff.mpr ⟨hport, hprotocol⟩, howner⟩

/-- The port that a persisted claim names is allocated again, in agreement with the owners that the
conflict check starts from, exactly when the recovered owners name nobody else there. -/
theorem persisted_claim_outranks_recovered_iff (cfg : Config) (muxKey : String × String)
    (ranges : List (Int × Int)) (state : Option StateDoc) (channels : List Channel)
    (reservedPorts : Finset PortKey) (recovered : Dict PortKey String)
    (hreserved : collectStaticPortClaims cfg channels = .ok reservedPorts)
    (hdistinct : ListenersDistinct (stateClaims state)) (c : Channel) (hc : c ∈ channels)
    (hadmitted : c.Admitted) (p : ServicePort) (hp : p ∈ c.ports) (hnamed : p.unnamed = false)
    (claim : Claim) (hclaim : (claimsByKey (stateClaims state)).get (c.claimKey p) = some claim)
    (port : Int) (hport : claimMuxPort claim = some port)
    (hin : containsPort ranges port = true)
    (hfree : ∀ d ∈ channels, ¬ StaticallyRequests cfg d (port, p.protocolOrTcp)) :
    ((allocate cfg c p (init muxKey ranges state channels reservedPorts recovered)).1 = .ok port ∧
      (recovered.update ((init muxKey ranges state channels reservedPorts recovered).portOwners
        cfg)).get (port, p.protocolOrTcp) = some (c.owner cfg p)) ↔
    ∀ o, recovered.get (port, p.protocolOrTcp) = some o → o = c.owner cfg p := by
  obtain ⟨hget, hlistener, howner⟩ := persisted_claim_init cfg muxKey ranges reservedPorts recovered
    hc hadmitted hp hnamed hclaim hport
  have hexclusive :
      ClaimsExclusive (init muxKey ranges state channels reservedPorts recovered).claims :=
    claimsExclusive_init hdistinct
  -- The merge lets the persisted claim win in any case.
  have hmerged : (recovered.update
      ((init muxKey ranges state channels reservedPorts recovered).portOwners cfg)).get
        (port, p.protocolOrTcp) = some (c.owner cfg p) := by
    rw [Dict.get_update, get_portOwners_of_claim hexclusive hget hlistener, howner, Option.some_or]
  rw [allocate_eq_ok_iff_due, and_iff_left hmerged]
  constructor
  · exact fun h => (qualifies_of_due h).undisputed
  · intro hundisputed
    refine Or.inl ⟨claimedPort_eq_some_iff.mpr ⟨claim, hget, hport⟩, hin, ?_,
      fun key claim' hget' hl' => ?_, hundisputed⟩
    · intro hmem
      obtain ⟨d, hd, hstatic⟩ := (mem_collectStaticPortClaims hreserved _).mp hmem
      exact hfree d hd hstatic
    · exact hexclusive key _ claim' claim _ hget' hget hl' hlistener

def disputedWeb : Channel :=
  sampleChannel "web" "http" 80 [("svc-mux.nowake.ai/external-ports", "http:auto")]

/-- Two channels with an `auto` port each; the annotation of `api` names the port that the persisted
claim gives to `web`. -/
def disputedChannels : List Channel :=
  [sampleChannel "api" "http" 80 [("svc-mux.nowake.ai/external-ports", "http:auto"),
      ("svc-mux.nowake.ai/ports", "http:80->9000")], disputedWeb]

def disputedState (recovered : Dict PortKey String) : MuxState :=
  init ("default", "mux") [(9000, 9001)]
    (some ⟨none, some [sampleClaim "web" 80 9000 "auto"], some []⟩) disputedChannels ∅ recovered

theorem notStaticallyRequested_disputedChannels (key : PortKey) :
    ∀ d ∈ disputedChannels, ¬ StaticallyRequests sampleConfig d key := by
  have hreserved : collectStaticPortClaims sampleConfig disputedChannels = .ok ∅ := by
    decide +kernel
  intro d hd hstatic
  exact Finset.notMem_empty _ ((mem_collectStaticPortClaims hreserved key).mpr ⟨d, hd, hstatic⟩)

/-- Without recovered owners `web` gets its port again. -/
theorem persisted_claim_outranks_undisputed :
    (allocate sampleConfig disputedWeb ⟨some "http", 80, some "TCP"⟩
      (disputedState Dict.empty)).1 = .ok 9000 :=
  ((persisted_claim_outranks_recovered_iff sampleConfig ("default", "mux") [(9000, 9001)]
    (some ⟨none, some [sampleClaim "web" 80 9000 "auto"], some []⟩) disputedChannels ∅ Dict.empty
    (by decide +kernel) (by decide +kernel) _ (by decide +kernel) (by decide +kernel) _
    (by decide +kernel) (by decide +kernel) (sampleClaim "web" 80 9000 "auto") (by decide +kernel)
    9000 (by decide +kernel) (by decide +kernel)
    (notStaticallyRequested_disputedChannels _)).mpr fun _ h => absurd h (by simp)).1

/-- With the owners that are recovered from the annotations it is moved, while the merged owners
still name it on its old port. -/
theorem persisted_claim_loses_disputed :
    (∀ d ∈ disputedChannels, ¬ StaticallyRequests sampleConfig d (9000, "TCP")) ∧
      ListenersDistinct (stateClaims (some ⟨none, some [sampleClaim "web" 80 9000 "auto"], some []⟩)) ∧
      ∃ recovered, collectExistingPortOwners sampleConfig disputedChannels [placeholderMuxPort] =
          .ok recovered ∧
        ((disputedState recovered).claimedPort disputedWeb ⟨some "http", 80, some "TCP"⟩ =
          some 9000 ∧
        (allocate sampleConfig disputedWeb ⟨some "http", 80, some "TCP"⟩
          (disputedState recovered)).1 = .ok 9001 ∧
        (recovered.update ((disputedState recovered).portOwners sampleConfig)).get (9000, "TCP") =
          some "default/web:07bb300") := by
  exact ⟨notStaticallyRequested_disputedChannels _, by decide +kernel, by decide +kernel⟩

end Recovered

end MuxState

end SvcLbMux
