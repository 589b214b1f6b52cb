import SvcLbMux.MuxDeletion

namespace SvcLbMux

open Py History

/-! ## The store under the updates and deletions of all muxes -/

/-- A call that changes `_state`, with what it finds in `memo` and in the index of channels. -/
inductive StoreOp where
  | update (memoEndpoints : MemoEndpoints) (sources : DebugSources) (muxKey : String × String)
      (mux : MuxService) (channels : List Channel)
  | delete (muxKey : String × String)

section Store

variable (cfg : Config)

def applyOp (st : DebugState) : StoreOp → DebugState
  | .update memoEndpoints sources muxKey mux channels =>
    (updateMuxState cfg memoEndpoints sources muxKey mux channels st).2
  | .delete muxKey => deleteMuxState muxKey st

def storeAfter (ops : List StoreOp) : DebugState := ops.foldl (applyOp cfg) DebugState.empty

/-- What the loop over the channels writes, up to the first that cannot be read. -/
def shownChannels (sources : DebugSources) (muxKey : String × String) (mux : DebugMux) :
    List Channel → List ((String × String) × DebugChannel)
  | [] => []
  | channel :: channels =>
    match debugChannel cfg sources muxKey mux channel with
    | .error _ => []
    | .ok state => (channel.key, state) :: shownChannels sources muxKey mux channels

def FirstUnreadable (channel : Channel) (channels : List Channel) : Prop :=
  ∃ before after, channels = before ++ channel :: after ∧ (∀ c ∈ before, DebugReadable cfg c) ∧
    ¬ DebugReadable cfg channel

namespace StoreOp

def muxKey : StoreOp → String × String
  | .update _ _ muxKey _ _ => muxKey
  | .delete muxKey => muxKey

def showsMux (key : String × String) : StoreOp → Option DebugMux
  | .update _ sources muxKey mux _ => if muxKey = key then some (debugMux sources mux) else none
  | .delete _ => none

def shows (key : String × String) : StoreOp → Option DebugChannel
  | .update _ sources muxKey mux channels =>
    (Dict.ofList (shownChannels cfg sources muxKey (debugMux sources mux) channels)).get key
  | .delete _ => none

/-- The channel that the update raises at: the first that cannot be read. -/
def RaisesAt (channel : Channel) : StoreOp → Prop
  | .update _ _ _ _ channels => FirstUnreadable cfg channel channels
  | .delete _ => False

/-- After the call the mux has no channels but those that the call has shown. -/
def Closes (key : String × String) (op : StoreOp) : Prop :=
  op.muxKey = key ∧ ∀ channel, ¬ op.RaisesAt cfg channel

end StoreOp

end Store

variable {cfg : Config} {memoEndpoints : MemoEndpoints} {sources : DebugSources} {muxData : DebugMux}
  {muxKey key : String × String}

/-! ## What a call does -/

theorem firstUnreadable_cons (c channel : Channel) (channels : List Channel) :
    FirstUnreadable cfg channel (c :: channels) ↔
      (c = channel ∧ ¬ DebugReadable cfg c) ∨
        (DebugReadable cfg c ∧ FirstUnreadable cfg channel channels) := by
  constructor
  · rintro ⟨before, after, heq, hreads, hnot⟩
    cases before with
    | nil =>
      obtain ⟨rfl, -⟩ := List.cons.inj heq
      exact Or.inl ⟨rfl, hnot⟩
    | cons b before =>
      obtain ⟨rfl, rfl⟩ := List.cons.inj heq
      exact Or.inr ⟨hreads c List.mem_cons_self, before, after, rfl,
        fun c' hc' => hreads c' (List.mem_cons_of_mem _ hc'), hnot⟩
  · rintro (⟨rfl, hnot⟩ | ⟨hread, before, after, rfl, hreads, hnot⟩)
    · exact ⟨[], channels, rfl, List.forall_mem_nil _, hnot⟩
    · exact ⟨c :: before, after, rfl, List.forall_mem_cons.mpr ⟨hread, hreads⟩, hnot⟩

theorem readable_iff_no_firstUnreadable {channels : List Channel} :
    (∀ channel, ¬ FirstUnreadable cfg channel channels) ↔ ∀ c ∈ channels, DebugReadable cfg c := by
  induction channels with
  | nil => simp [FirstUnreadable]
  | cons c channels ih =>
    simp only [firstUnreadable_cons, List.forall_mem_cons, ← ih]
    constructor
    · intro h
      have hread : DebugReadable cfg c := by_contra fun hnot => h c (Or.inl ⟨rfl, hnot⟩)
      exact ⟨hread, fun channel hfirst => h channel (Or.inr ⟨hread, hfirst⟩)⟩
    · rintro ⟨hread, hrest⟩ channel (⟨-, hnot⟩ | ⟨-, hfirst⟩)
      · exact hnot hread
      · exact hrest channel hfirst

theorem channelServices_updateEndpointState (key : String × String) (st : DebugState) :
    (updateEndpointState memoEndpoints sources key st).channelServices = st.channelServices := by
  unfold updateEndpointState
  cases memoEndpoints.get key <;> rfl

theorem channelServices_updateChannelStates (channels : List Channel) (st : DebugState) :
    (updateChannelStates cfg memoEndpoints sources muxKey muxData channels st).2.channelServices =
      st.channelServices.updateList (shownChannels cfg sources muxKey muxData channels) := by
  induction channels generalizing st with
  | nil => rfl
  | cons channel channels ih =>
    rw [updateChannelStates, shownChannels]
    cases debugChannel cfg sources muxKey muxData channel with
    | error e => exact channelServices_updateEndpointState channel.key st
    | ok state =>
      dsimp only
      rw [ih, channelServices_updateEndpointState]
      rfl

theorem mux_debugChannel {channel : Channel} {state : DebugChannel}
    (h : debugChannel cfg sources muxKey muxData channel = .ok state) : state.mux = muxKey := by
  unfold debugChannel at h
  cases hports : DebugState.parseMuxPortAnnotation (channel.annotation cfg.annotationPorts) with
  | error e =>
    rw [hports] at h
    exact nomatch h
  | ok muxPortMap =>
    rw [hports] at h
    exact (Except.ok.inj h) ▸ rfl

theorem mem_keys_of_mem_shownChannels {channels : List Channel} {state : DebugChannel}
    (h : (key, state) ∈ shownChannels cfg sources muxKey muxData channels) :
    key ∈ channels.map Channel.key ∧ state.mux = muxKey := by
  induction channels with
  | nil => exact nomatch h
  | cons channel channels ih =>
    rw [shownChannels] at h
    cases hchannel : debugChannel cfg sources muxKey muxData channel with
    | error e =>
      rw [hchannel] at h
      exact nomatch h
    | ok found =>
      rw [hchannel] at h
      rcases List.mem_cons.mp h with heq | h
      · obtain ⟨rfl, rfl⟩ := Prod.mk.inj heq
        refine ⟨List.mem_cons_self, ?_⟩
        exact mux_debugChannel hchannel
      · exact ⟨List.mem_cons_of_mem _ (ih h).1, (ih h).2⟩

theorem map_fst_shownChannels {channels : List Channel} (h : ∀ c ∈ channels, DebugReadable cfg c) :
    (shownChannels cfg sources muxKey muxData channels).map Prod.fst = channels.map Channel.key := by
  induction channels with
  | nil => rfl
  | cons channel channels ih =>
    obtain ⟨state, hstate⟩ := (debugChannel_ok_iff sources muxKey muxData).mpr (h channel List.mem_cons_self)
    rw [shownChannels, hstate]
    dsimp only
    rw [List.map_cons, List.map_cons, ih fun c hc => h c (List.mem_cons_of_mem _ hc)]

theorem mem_departedChannels_iff {channels : List Channel} {st : DebugState} :
    key ∈ departedChannels muxKey channels st ↔
      ∃ state, st.channelServices.get key = some state ∧ state.mux = muxKey ∧
        key ∉ channels.map Channel.key := by
  simp only [departedChannels, List.mem_map, List.mem_filter, Bool.and_eq_true,
    decide_eq_true_eq, Dict.get_eq_some_iff]
  constructor
  · rintro ⟨⟨_, state⟩, ⟨hmem, hmux, hnot⟩, rfl⟩
    exact ⟨state, hmem, hmux, by simpa using hnot⟩
  · rintro ⟨state, hmem, hmux, hnot⟩
    exact ⟨(key, state), ⟨hmem, hmux, by simpa using hnot⟩, rfl⟩

theorem mem_muxChannelKeys_iff {st : DebugState} :
    key ∈ muxChannelKeys muxKey st ↔
      ∃ state, st.channelServices.get key = some state ∧ state.mux = muxKey := by
  simp only [muxChannelKeys, List.mem_map, List.mem_filter, decide_eq_true_eq, Dict.get_eq_some_iff]
  constructor
  · rintro ⟨⟨_, state⟩, ⟨hmem, hmux⟩, rfl⟩
    exact ⟨state, hmem, hmux⟩
  · rintro ⟨state, hmem, hmux⟩
    exact ⟨(key, state), ⟨hmem, hmux⟩, rfl⟩

/-- The channels after an update, of which those that have departed go only if it does not raise. -/
theorem get_channelServices_updateMuxState (mux : MuxService) (channels : List Channel)
    (st : DebugState) (state : DebugChannel) :
    (updateMuxState cfg memoEndpoints sources muxKey mux channels st).2.channelServices.get key =
        some state ↔
      (st.channelServices.updateList
          (shownChannels cfg sources muxKey (debugMux sources mux) channels)).get key = some state ∧
        ¬ ((∀ c ∈ channels, DebugReadable cfg c) ∧ key ∉ channels.map Channel.key ∧
          state.mux = muxKey) := by
  let muxData := debugMux sources mux
  let before := updateEndpointState memoEndpoints sources muxKey
    (updateMuxService sources muxKey mux st)
  have hbefore : before.channelServices = st.channelServices :=
    channelServices_updateEndpointState muxKey _
  have hwritten := @channelServices_updateChannelStates cfg memoEndpoints sources muxData muxKey
    channels before
  rw [hbefore] at hwritten
  have hok := @updateChannelStates_ok_iff cfg memoEndpoints sources muxKey muxData channels before
  change (updateMuxChannels cfg memoEndpoints sources muxKey muxData channels
    before).2.channelServices.get key = some state ↔ _
  rw [updateMuxChannels]
  cases hrun : updateChannelStates cfg memoEndpoints sources muxKey muxData channels before with
  | mk outcome after =>
    rw [hrun] at hwritten hok
    rw [← hwritten]
    cases outcome with
    | error e => exact (and_iff_left fun h => nomatch hok.mpr h.1).symm
    | ok u =>
      have hread := hok.mp rfl
      have hdeparted := @mem_departedChannels_iff muxKey key channels after
      change (after.channelServices.filterKeys fun k =>
        k ∉ departedChannels muxKey channels after).get key = some state ↔ _
      rw [and_iff_right hread, and_comm (a := key ∉ channels.map Channel.key)]
      refine Dict.get_filterKeys_of_values
        (fun found : DebugChannel => found.mux = muxKey ∧ key ∉ channels.map Channel.key) ?_
      rw [decide_eq_true_eq, not_not, hdeparted]

theorem get_channelServices_delete (muxKey : String × String) (st : DebugState)
    (state : DebugChannel) :
    (applyOp cfg st (.delete muxKey)).channelServices.get key = some state ↔
      st.channelServices.get key = some state ∧ muxKey ≠ state.mux := by
  change (st.channelServices.filterKeys fun k => k ∉ muxChannelKeys muxKey _).get key = _ ↔ _
  have hgone := @mem_muxChannelKeys_iff muxKey key
    { st with muxServices := st.muxServices.erase muxKey, endpoints := st.endpoints.erase muxKey }
  rw [ne_comm]
  refine Dict.get_filterKeys_of_values (fun found : DebugChannel => found.mux = muxKey) ?_
  rw [decide_eq_true_eq, not_not, hgone]

theorem get_channelServices_update (mux : MuxService) (channels : List Channel) (st : DebugState)
    (state : DebugChannel) :
    (updateMuxState cfg memoEndpoints sources muxKey mux channels st).2.channelServices.get key =
        some state ↔
      (StoreOp.update memoEndpoints sources muxKey mux channels).shows cfg key = some state ∨
        (StoreOp.update memoEndpoints sources muxKey mux channels).shows cfg key = none ∧
          ¬ (muxKey = state.mux ∧ ∀ c ∈ channels, DebugReadable cfg c) ∧
          st.channelServices.get key = some state := by
  let states := shownChannels cfg sources muxKey (debugMux sources mux) channels
  rw [get_channelServices_updateMuxState, Dict.get_updateList]
  change ((Dict.ofList states).get key).or _ = some state ∧ _ ↔
    (Dict.ofList states).get key = some state ∨ (Dict.ofList states).get key = none ∧ _
  cases hshown : (Dict.ofList states).get key with
  | some shown =>
    have hmem := (Dict.mem_or_get_of_get_updateList _ _ _ _ hshown).resolve_right (by simp)
    have hkey := (mem_keys_of_mem_shownChannels hmem).1
    rw [and_iff_left fun h => h.2.1 hkey]
    simp
  | none =>
    -- A channel that an update shows in its turn is not among those that it ends without.
    have hnot : (∀ c ∈ channels, DebugReadable cfg c) → key ∉ channels.map Channel.key := by
      intro hread hkey
      rw [← @map_fst_shownChannels cfg sources (debugMux sources mux) muxKey channels hread] at hkey
      have hlisted := (Dict.mem_keys_updateList Dict.empty _ key).mpr (Or.inr hkey)
      exact (Dict.get_eq_none_iff _ _).mp hshown hlisted
    rw [Option.none_or]
    constructor
    · rintro ⟨h, hkept⟩
      exact Or.inr ⟨rfl, fun hclosed => hkept ⟨hclosed.2, hnot hclosed.2, hclosed.1.symm⟩, h⟩
    · rintro (h | ⟨-, hkept, h⟩)
      · cases h
      · exact ⟨h, fun hgone => hkept ⟨hgone.2.2.symm, hgone.1⟩⟩

/-- A call writes a channel, or leaves it as it is, or removes it with its mux. -/
theorem get_channelServices_applyOp (st : DebugState) (op : StoreOp) (state : DebugChannel) :
    (applyOp cfg st op).channelServices.get key = some state ↔
      op.shows cfg key = some state ∨
        op.shows cfg key = none ∧ ¬ op.Closes cfg state.mux ∧
          st.channelServices.get key = some state := by
  cases op with
  | delete muxKey =>
    have hcloses : (StoreOp.delete muxKey).Closes cfg state.mux ↔ muxKey = state.mux :=
      and_iff_left fun channel h => h
    rw [get_channelServices_delete, hcloses, and_comm]
    simp [StoreOp.shows]
  | update memoEndpoints sources muxKey mux channels =>
    have hcloses : (StoreOp.update memoEndpoints sources muxKey mux channels).Closes cfg state.mux ↔
        muxKey = state.mux ∧ ∀ c ∈ channels, DebugReadable cfg c := by
      rw [← readable_iff_no_firstUnreadable]
      rfl
    rw [hcloses]
    exact get_channelServices_update mux channels st state

theorem get_muxServices_applyOp (st : DebugState) (op : StoreOp) (data : DebugMux) :
    (applyOp cfg st op).muxServices.get key = some data ↔
      op.showsMux key = some data ∨
        op.showsMux key = none ∧ ¬ op.muxKey = key ∧ st.muxServices.get key = some data := by
  cases op with
  | delete muxKey =>
    change (st.muxServices.erase muxKey).get key = some data ↔ _
    rw [Dict.get_erase]
    by_cases hkey : muxKey = key <;> simp [StoreOp.showsMux, StoreOp.muxKey, hkey]
  | update memoEndpoints sources muxKey mux channels =>
    change (updateMuxChannels cfg memoEndpoints sources muxKey (debugMux sources mux) channels
      _).2.muxServices.get key = _ ↔ _
    rw [muxServices_updateMuxChannels, muxServices_updateEndpointState]
    change (st.muxServices.set muxKey _).get key = some data ↔ _
    rw [Dict.get_set]
    by_cases hkey : muxKey = key <;> simp [StoreOp.showsMux, StoreOp.muxKey, hkey]

/-- Endpoints are those of a mux, of a channel or of a channel that an update raised at. -/
def EndpointsKnown (raised : String × String → Prop) (st : DebugState) : Prop :=
  ∀ key ∈ st.endpoints.keys,
    key ∈ st.muxServices.keys ∨ key ∈ st.channelServices.keys ∨ raised key

section EndpointsKnown

variable {raised : String × String → Prop} {st : DebugState}

theorem mem_keys_updateEndpointState
    (h : key ∈ (updateEndpointState memoEndpoints sources muxKey st).endpoints.keys) :
    key = muxKey ∨ key ∈ st.endpoints.keys := by
  unfold updateEndpointState at h
  cases hget : memoEndpoints.get muxKey with
  | none =>
    rw [hget] at h
    exact Or.inr h
  | some value =>
    rw [hget] at h
    exact (Dict.mem_keys_set.mp h).symm

theorem endpointsKnown_updateChannelStates (channels : List Channel)
    (hraised : ∀ c, FirstUnreadable cfg c channels → raised c.key)
    (h : EndpointsKnown raised st) :
    EndpointsKnown raised (updateChannelStates cfg memoEndpoints sources muxKey muxData channels st).2 := by
  induction channels generalizing st with
  | nil => exact h
  | cons channel channels ih =>
    have hmux := @muxServices_updateEndpointState memoEndpoints sources channel.key st
    have hchannels := @channelServices_updateEndpointState memoEndpoints sources channel.key st
    rw [updateChannelStates]
    cases hchannel : debugChannel cfg sources muxKey muxData channel with
    | error e =>
      have hunreadable : ¬ DebugReadable cfg channel := by
        rw [← debugChannel_ok_iff sources muxKey muxData, hchannel]
        rintro ⟨state, hstate⟩
        cases hstate
      intro key hkey
      dsimp only at hkey ⊢
      rw [hmux, hchannels]
      rcases mem_keys_updateEndpointState hkey with rfl | hkey
      · exact Or.inr (Or.inr (hraised channel
          ((firstUnreadable_cons channel channel channels).mpr (Or.inl ⟨rfl, hunreadable⟩))))
      · exact h key hkey
    | ok state =>
      have hread := (debugChannel_ok_iff sources muxKey muxData).mp ⟨state, hchannel⟩
      apply ih fun c hc =>
        hraised c ((firstUnreadable_cons channel c channels).mpr (Or.inr ⟨hread, hc⟩))
      intro key hkey
      dsimp only at hkey ⊢
      rw [hmux, hchannels, Dict.mem_keys_set]
      rcases mem_keys_updateEndpointState hkey with rfl | hkey
      · exact Or.inr (Or.inl (Or.inr rfl))
      · obtain hknown | hknown | hknown := h key hkey
        · exact Or.inl hknown
        · exact Or.inr (Or.inl (Or.inl hknown))
        · exact Or.inr (Or.inr hknown)

theorem endpointsKnown_removeChannels (keys : List (String × String))
    (h : EndpointsKnown raised st) : EndpointsKnown raised (removeChannels keys st) := by
  intro key hkey
  obtain ⟨counts, hcounts⟩ := (Dict.mem_keys_iff _ _).mp hkey
  change (st.endpoints.filterKeys _).get key = some counts at hcounts
  rw [Dict.get_filterKeys] at hcounts
  split_ifs at hcounts with hkept
  obtain hknown | hknown | hknown := h key ((Dict.mem_keys_iff _ _).mpr ⟨counts, hcounts⟩)
  · exact Or.inl hknown
  · obtain ⟨state, hstate⟩ := (Dict.mem_keys_iff _ _).mp hknown
    refine Or.inr (Or.inl ((Dict.mem_keys_iff _ _).mpr ⟨state, ?_⟩))
    change (st.channelServices.filterKeys _).get key = some state
    rw [Dict.get_filterKeys, if_pos hkept]
    exact hstate
  · exact Or.inr (Or.inr hknown)

theorem endpointsKnown_applyOp {op : StoreOp}
    (hraised : ∀ channel, op.RaisesAt cfg channel → raised channel.key)
    (h : EndpointsKnown raised st) : EndpointsKnown raised (applyOp cfg st op) := by
  cases op with
  | delete muxKey =>
    apply endpointsKnown_removeChannels
    intro key hkey
    obtain ⟨counts, hcounts⟩ := (Dict.mem_keys_iff _ _).mp hkey
    rw [Dict.get_erase] at hcounts
    split_ifs at hcounts with hne
    obtain hknown | hknown := h key ((Dict.mem_keys_iff _ _).mpr ⟨counts, hcounts⟩)
    · obtain ⟨data, hdata⟩ := (Dict.mem_keys_iff _ _).mp hknown
      refine Or.inl ((Dict.mem_keys_iff _ _).mpr ⟨data, ?_⟩)
      rw [Dict.get_erase, if_neg hne]
      exact hdata
    · exact Or.inr hknown
  | update memoEndpoints sources muxKey mux channels =>
    have hstates : EndpointsKnown raised (updateChannelStates cfg memoEndpoints sources muxKey
        (debugMux sources mux) channels (updateEndpointState memoEndpoints sources muxKey
          (updateMuxService sources muxKey mux st))).2 := by
      apply endpointsKnown_updateChannelStates channels hraised
      · intro key hkey
        rw [muxServices_updateEndpointState, channelServices_updateEndpointState]
        change key ∈ (st.muxServices.set muxKey _).keys ∨ key ∈ st.channelServices.keys ∨ raised key
        rw [Dict.mem_keys_set]
        rcases mem_keys_updateEndpointState hkey with rfl | hkey
        · exact Or.inl (Or.inr rfl)
        · exact (h key hkey).imp_left Or.inl
    change EndpointsKnown raised
      (updateMuxChannels cfg memoEndpoints sources muxKey (debugMux sources mux) channels _).2
    rw [updateMuxChannels]
    cases hrun : updateChannelStates cfg memoEndpoints sources muxKey (debugMux sources mux) channels
        (updateEndpointState memoEndpoints sources muxKey
          (updateMuxService sources muxKey mux st)) with
    | mk outcome after =>
      rw [hrun] at hstates
      cases outcome with
      | error e => exact hstates
      | ok u => exact endpointsKnown_removeChannels _ hstates

end EndpointsKnown

/-! ## The last calls -/

/-- `state` is the last that a call has shown of the channel, and no call has since left the mux of
it without other channels. -/
def LastShown (cfg : Config) (ops : List StoreOp) (key : String × String) (state : DebugChannel) :
    Prop :=
  ∃ before op after, ops = before ++ op :: after ∧ op.shows cfg key = some state ∧
    ∀ later ∈ after, later.shows cfg key = none ∧ ¬ later.Closes cfg state.mux

/-- The last call for the mux is an update, which has shown `data`. -/
def LastUpdated (ops : List StoreOp) (muxKey : String × String) (data : DebugMux) : Prop :=
  ∃ before op after, ops = before ++ op :: after ∧ op.showsMux muxKey = some data ∧
    ∀ later ∈ after, later.muxKey ≠ muxKey

theorem get_channelServices_storeAfter (ops : List StoreOp) (state : DebugChannel) :
    (storeAfter cfg ops).channelServices.get key = some state ↔ LastShown cfg ops key state := by
  refine @cell_eq_some_iff_last _ _ (fun ops => (storeAfter cfg ops).channelServices.get key)
    (StoreOp.shows cfg key) (fun op state => op.Closes cfg state.mux) rfl (fun ops op b => ?_) ops
    state
  rw [storeAfter, List.foldl_concat]
  exact get_channelServices_applyOp _ op b

theorem showsMux_eq_none_of_ne {op : StoreOp} (h : op.muxKey ≠ muxKey) :
    op.showsMux muxKey = none := by
  cases op with
  | update => exact if_neg h
  | delete => rfl

theorem get_muxServices_storeAfter (ops : List StoreOp) (data : DebugMux) :
    (storeAfter cfg ops).muxServices.get muxKey = some data ↔ LastUpdated ops muxKey data := by
  have hlast := @cell_eq_some_iff_last _ _ (fun ops => (storeAfter cfg ops).muxServices.get muxKey)
    (StoreOp.showsMux muxKey) (fun op _ => op.muxKey = muxKey) rfl (fun ops op b => by
      rw [storeAfter, List.foldl_concat]
      exact get_muxServices_applyOp _ op b) ops data
  rw [hlast]
  constructor
  · rintro ⟨before, op, after, hops, hshows, hafter⟩
    exact ⟨before, op, after, hops, hshows, fun later hlater => (hafter later hlater).2⟩
  · rintro ⟨before, op, after, hops, hshows, hafter⟩
    exact ⟨before, op, after, hops, hshows, fun later hlater =>
      ⟨showsMux_eq_none_of_ne (hafter later hlater), hafter later hlater⟩⟩

theorem endpointsKnown_storeAfter (ops : List StoreOp) :
    EndpointsKnown (fun key => ∃ op ∈ ops, ∃ channel, op.RaisesAt cfg channel ∧ channel.key = key)
      (storeAfter cfg ops) := by
  refine List.foldlRecOn ops (applyOp cfg) (fun key h => nomatch h) fun st h op hop => ?_
  exact endpointsKnown_applyOp (fun channel hraises => ⟨op, hop, channel, hraises, rfl⟩) h

theorem mux_of_shows {op : StoreOp} {state : DebugChannel} (h : op.shows cfg key = some state) :
    state.mux = op.muxKey ∧ ∃ data, op.showsMux op.muxKey = some data := by
  cases op with
  | delete => exact nomatch h
  | update memoEndpoints sources muxKey mux channels =>
    have hmem := (Dict.mem_or_get_of_get_updateList _ _ _ _ h).resolve_right (by simp)
    exact ⟨(mem_keys_of_mem_shownChannels hmem).2, _, if_pos rfl⟩

/-- A channel that is there has its mux there: the mux was not deleted after it was shown. -/
theorem exists_lastUpdated_of_lastShown {ops : List StoreOp} {state : DebugChannel}
    (h : LastShown cfg ops key state) : ∃ data, LastUpdated ops state.mux data := by
  obtain ⟨before, op, after, rfl, hshows, hafter⟩ := h
  obtain ⟨hmux, data, hdata⟩ := mux_of_shows hshows
  rw [← hmux] at hdata
  clear hshows
  -- The last call for the mux is this one, or a later update.
  induction after using List.reverseRecOn generalizing data with
  | nil => exact ⟨data, before, op, [], rfl, hdata, fun later hlater => nomatch hlater⟩
  | append_singleton after later ih =>
    by_cases hkey : later.muxKey = state.mux
    · have hkept := (hafter later (by simp)).2
      cases hlater : later with
      | delete muxKey =>
        refine absurd ⟨hkey, fun channel hraises => ?_⟩ hkept
        rw [hlater] at hraises
        exact hraises
      | update memoEndpoints sources muxKey mux channels =>
        rw [hlater] at hkey
        refine ⟨_, before ++ op :: after, .update memoEndpoints sources muxKey mux channels, [],
          by simp, if_pos hkey, fun later hlater => nomatch hlater⟩
    · obtain ⟨data', before', op', after', hops, hdata', hafter'⟩ :=
        ih (fun f hf => hafter f (by simp [hf])) data hdata
      refine ⟨data', before', op', after' ++ [later], ?_, hdata', fun f hf => ?_⟩
      · rw [← List.cons_append, ← List.append_assoc, hops]
        simp
      · rcases List.mem_append.mp hf with hf | hf
        · exact hafter' f hf
        · exact List.mem_singleton.mp hf ▸ hkey

/-! ## The topology -/

structure TopologyChannel where
  key : String × String
  externalDns : Option String
  customDns : Option String
  ports : List DebugPort
deriving DecidableEq

structure TopologyMux where
  muxExternalDns : Option String
  muxExternalIp : Option String
  muxMissing : Bool
  hasQueue : Bool
  channels : List TopologyChannel
deriving DecidableEq

def keyText (key : String × String) : String := key.1 ++ "/" ++ key.2

/-- `_topology_mux_entry`. -/
def topologyMuxEntry (muxServices : Dict (String × String) DebugMux) (muxKey : String × String) :
    TopologyMux :=
  match muxServices.get muxKey with
  | some muxInfo => ⟨muxInfo.externalDnsHostname, muxInfo.statusIngress, false, muxInfo.hasQueue, []⟩
  | none => ⟨none, none, true, false, []⟩

def topologyChannel (channel : (String × String) × DebugChannel) : TopologyChannel :=
  ⟨channel.1, channel.2.externalDns, channel.2.customDns, channel.2.ports⟩

def TopologyMux.append (entry : TopologyMux) (channel : (String × String) × DebugChannel) :
    TopologyMux :=
  { entry with channels := entry.channels ++ [topologyChannel channel] }

def topology (st : DebugState) : Dict String TopologyMux :=
  st.channelServices.entries.foldl
    (Dict.collect (fun channel => keyText channel.2.mux)
      (fun channel => topologyMuxEntry st.muxServices channel.2.mux) TopologyMux.append)
    Dict.empty

theorem keyText_injective {key key' : String × String} (h : '/' ∉ key.1.toList)
    (h' : '/' ∉ key'.1.toList) (htext : keyText key = keyText key') : key = key' := by
  have hlist := congrArg String.toList htext
  simp only [keyText, String.toList_append] at hlist
  obtain ⟨hfst, hsnd⟩ := append_cons_inj h h' (by simpa using hlist)
  exact Prod.ext (String.toList_inj.mp hfst) (String.toList_inj.mp hsnd)

theorem foldl_append (entry : TopologyMux) (channels : List ((String × String) × DebugChannel)) :
    channels.foldl TopologyMux.append entry =
      { entry with channels := entry.channels ++ channels.map topologyChannel } := by
  induction channels generalizing entry with
  | nil => simp
  | cons channel channels ih =>
    rw [List.foldl_cons, ih]
    simp [TopologyMux.append]

/-- The entry shows the mux and its channels, each of them once, as the last calls have them. -/
structure ShowsMux (cfg : Config) (ops : List StoreOp) (muxKey : String × String)
    (entry : TopologyMux) : Prop where
  present : entry.muxMissing = false
  mux : LastUpdated ops muxKey ⟨entry.hasQueue, entry.muxExternalDns, entry.muxExternalIp⟩
  nonempty : entry.channels ≠ []
  nodup : (entry.channels.map TopologyChannel.key).Nodup
  channels : ∀ shown, shown ∈ entry.channels ↔
    ∃ key state, LastShown cfg ops key state ∧ state.mux = muxKey ∧ topologyChannel (key, state) = shown

theorem get_topology {st : DebugState} {state : DebugChannel}
    (hslash : ∀ key state, st.channelServices.get key = some state → '/' ∉ state.mux.1.toList)
    (hstate : st.channelServices.get key = some state) :
    (topology st).get (keyText state.mux) =
      some { topologyMuxEntry st.muxServices state.mux with
        channels := (st.channelServices.entries.filter fun c => c.2.mux = state.mux).map
          topologyChannel } := by
  have hfilter : (st.channelServices.entries.filter fun c => keyText c.2.mux = keyText state.mux) =
      st.channelServices.entries.filter fun c => c.2.mux = state.mux := by
    apply List.filter_congr
    intro c hc
    have hslashless := hslash c.1 c.2 ((Dict.get_eq_some_iff _ _ _).mpr hc)
    exact decide_eq_decide.mpr
      ⟨keyText_injective hslashless (hslash key state hstate), congrArg keyText⟩
  have hmem : (key, state) ∈ st.channelServices.entries.filter fun c => c.2.mux = state.mux :=
    List.mem_filter.mpr ⟨(Dict.get_eq_some_iff _ _ _).mp hstate, decide_eq_true rfl⟩
  rw [topology, Dict.get_foldl_collect, hfilter]
  cases hchannels : st.channelServices.entries.filter fun c => c.2.mux = state.mux with
  | nil =>
    rw [hchannels] at hmem
    exact nomatch hmem
  | cons channel channels =>
    -- The first channel of the mux makes the entry.
    have hfirst : channel ∈ st.channelServices.entries.filter fun c => c.2.mux = state.mux := by
      rw [hchannels]
      exact List.mem_cons_self
    rw [List.head?_cons, Option.map_some, foldl_append,
      show channel.2.mux = state.mux from of_decide_eq_true (List.mem_filter.mp hfirst).2]
    unfold topologyMuxEntry
    cases st.muxServices.get state.mux <;> rfl

section Topology

variable {ops : List StoreOp} {state : DebugChannel}

theorem slashless_of_lastShown (hslash : ∀ op ∈ ops, '/' ∉ op.muxKey.1.toList)
    (h : LastShown cfg ops key state) : '/' ∉ state.mux.1.toList := by
  obtain ⟨before, op, after, rfl, hshows, -⟩ := h
  rw [(mux_of_shows hshows).1]
  exact hslash op (by simp)

theorem showsMux_of_lastShown (hslash : ∀ op ∈ ops, '/' ∉ op.muxKey.1.toList)
    (h : LastShown cfg ops key state) :
    ∃ entry, (topology (storeAfter cfg ops)).get (keyText state.mux) = some entry ∧
      ShowsMux cfg ops state.mux entry := by
  have hstate := (get_channelServices_storeAfter ops state).mpr h
  obtain ⟨data, hdata⟩ := exists_lastUpdated_of_lastShown h
  have hmux : topologyMuxEntry (storeAfter cfg ops).muxServices state.mux =
      ⟨data.externalDnsHostname, data.statusIngress, false, data.hasQueue, []⟩ := by
    rw [topologyMuxEntry, (get_muxServices_storeAfter ops data).mpr hdata]
  refine ⟨_, get_topology (fun key state hstate => slashless_of_lastShown hslash
    ((get_channelServices_storeAfter ops state).mp hstate)) hstate, ?_⟩
  rw [hmux]
  refine ⟨rfl, hdata, ?_, ?_, fun shown => ?_⟩
  · intro hnil
    have hmem := List.filter_eq_nil_iff.mp (List.map_eq_nil_iff.mp hnil) (key, state)
      ((Dict.get_eq_some_iff _ _ _).mp hstate)
    exact hmem (decide_eq_true rfl)
  · rw [List.map_map]
    exact (List.filter_sublist.map Prod.fst).nodup (storeAfter cfg ops).channelServices.nodup
  · simp only [List.mem_map, List.mem_filter, decide_eq_true_eq, ← get_channelServices_storeAfter,
      Dict.get_eq_some_iff]
    constructor
    · rintro ⟨⟨key', found⟩, ⟨hfound, hmux⟩, rfl⟩
      exact ⟨key', found, hfound, hmux, rfl⟩
    · rintro ⟨key', found, hfound, hmux, rfl⟩
      exact ⟨(key', found), ⟨hfound, hmux⟩, rfl⟩

theorem exists_lastShown_of_get_topology {text : String} {entry : TopologyMux}
    (h : (topology (storeAfter cfg ops)).get text = some entry) :
    ∃ key state, LastShown cfg ops key state ∧ keyText state.mux = text := by
  rw [topology, Dict.get_foldl_collect] at h
  obtain ⟨channel, hfirst, -⟩ := Option.map_eq_some_iff.mp h
  obtain ⟨hmem, htext⟩ := List.mem_filter.mp (List.mem_of_mem_head? hfirst)
  exact ⟨channel.1, channel.2, (get_channelServices_storeAfter ops channel.2).mp
    ((Dict.get_eq_some_iff _ _ _).mpr hmem), of_decide_eq_true htext⟩

end Topology

/-- Whatever the order in which the muxes update and delete, also with updates that raise: the store
has a mux and a channel as the last calls for them have left them. No Endpoints are left over, but
those of a channel that an update raised at. The topology has each channel once, under the mux of
its last update, and never a mux that is missing. -/
theorem debug_api_shows_last_calls (cfg : Config) (ops : List StoreOp)
    (hslash : ∀ op ∈ ops, '/' ∉ op.muxKey.1.toList) :
    (∀ muxKey data, (storeAfter cfg ops).muxServices.get muxKey = some data ↔
      LastUpdated ops muxKey data) ∧
    (∀ key state, (storeAfter cfg ops).channelServices.get key = some state ↔
      LastShown cfg ops key state) ∧
    (∀ key ∈ (storeAfter cfg ops).endpoints.keys, (∃ data, LastUpdated ops key data) ∨
      (∃ state, LastShown cfg ops key state) ∨
      ∃ op ∈ ops, ∃ channel, op.RaisesAt cfg channel ∧ channel.key = key) ∧
    (∀ key state, LastShown cfg ops key state →
      ∃ entry, (topology (storeAfter cfg ops)).get (keyText state.mux) = some entry) ∧
    ∀ text entry, (topology (storeAfter cfg ops)).get text = some entry →
      ∃ muxKey, keyText muxKey = text ∧ ShowsMux cfg ops muxKey entry := by
  refine ⟨fun muxKey data => get_muxServices_storeAfter ops data,
    fun key state => get_channelServices_storeAfter ops state, fun key hkey => ?_,
    fun key state h => ?_, fun text entry h => ?_⟩
  · obtain hmux | hchannel | hraised := endpointsKnown_storeAfter ops key hkey
    · obtain ⟨data, hdata⟩ := (Dict.mem_keys_iff _ _).mp hmux
      exact Or.inl ⟨data, (get_muxServices_storeAfter ops data).mp hdata⟩
    · obtain ⟨state, hstate⟩ := (Dict.mem_keys_iff _ _).mp hchannel
      exact Or.inr (Or.inl ⟨state, (get_channelServices_storeAfter ops state).mp hstate⟩)
    · exact Or.inr (Or.inr hraised)
  · obtain ⟨entry, hentry, -⟩ := showsMux_of_lastShown hslash h
    exact ⟨entry, hentry⟩
  · obtain ⟨key, state, hshown, rfl⟩ := exists_lastShown_of_get_topology h
    obtain ⟨found, hfound, hshows⟩ := showsMux_of_lastShown hslash hshown
    obtain rfl := Option.some.inj (hfound.symm.trans h)
    exact ⟨state.mux, rfl, hshows⟩

/-- The channel `web` moves to another mux, whose update comes before that of the mux it has left. -/
def sampleStoreOps : List StoreOp :=
  let web := sampleChannel "web" "http" 80 [("svc-mux.nowake.ai/ports", "http:80->9000")]
  let api := sampleChannel "api" "http" 80 []
  [.update Dict.empty sampleSources ("default", "mux") (sampleMux [] []) [web, api],
    .update Dict.empty sampleSources ("default", "edge") (sampleMux [] []) [web],
    .update Dict.empty sampleSources ("default", "mux") (sampleMux [] []) [api]]

theorem debug_api_shows_last_calls_sampleStoreOps :
    (topology (storeAfter sampleConfig sampleStoreOps)).entries.map
        (fun e => (e.1, e.2.channels.map TopologyChannel.key)) =
      [("default/edge", [("default", "web")]), ("default/mux", [("default", "api")])] ∧
    ∀ text entry, (topology (storeAfter sampleConfig sampleStoreOps)).get text = some entry →
      ∃ muxKey, keyText muxKey = text ∧ ShowsMux sampleConfig sampleStoreOps muxKey entry :=
  ⟨by decide +kernel,
    (debug_api_shows_last_calls sampleConfig sampleStoreOps (by decide)).2.2.2.2⟩

end SvcLbMux
