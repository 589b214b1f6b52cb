import SvcLbMux.Library.Interleaving
import SvcLbMux.OwnFields
import SvcLbMux.Refs

namespace SvcLbMux

open Py

/-! ## The cluster -/

/-- A channel Service with its `loadBalancerClass`. -/
structure ClassedChannel where
  lbClass : String
  channel : Channel

/-- What the API server holds for all muxes. No Service is a mux and a channel at once. -/
structure World where
  muxes : Dict (String × String) MuxService
  channels : List ClassedChannel
  channelStatus : Dict (String × String) LoadBalancer
  configmaps : Dict (String × String) ConfigMap
  endpoints : Dict (String × String) Endpoints
  keyed : ∀ key mux, muxes.get key = some mux → (mux.namespace_, mux.name) = key
  admitted : ∀ c ∈ channels, c.channel.Admitted
  distinct : (channels.map fun c => c.channel.key).Nodup
  apart : ∀ c ∈ channels, muxes.get c.channel.key = none

def configmapKey (cfg : Config) (mux : MuxService) : String × String :=
  ((muxStore cfg mux).namespace_, (muxStore cfg mux).name)

namespace World

/-- A write to a mux does not change what it is called. -/
def modifyMux (world : World) (key : String × String) (f : MuxService → MuxService)
    (hf : ∀ mux, ((f mux).namespace_, (f mux).name) = (mux.namespace_, mux.name)) : World :=
  { world with
    muxes := world.muxes.modify key f
    keyed := by
      intro j mux hmux
      rw [Dict.get_modify] at hmux
      split_ifs at hmux
      · obtain ⟨mux', hmux', rfl⟩ := Option.map_eq_some_iff.mp hmux
        rw [hf]
        exact world.keyed j mux' hmux'
      · exact world.keyed j mux hmux
    apart := by
      intro c hc
      rw [Dict.get_modify, world.apart c hc]
      split_ifs <;> rfl }

section View

variable (cfg : Config)

/-- `patchedChannel` of a channel with its class. -/
def patchedClassed (key : String × String) (text : String) (c : ClassedChannel) : ClassedChannel :=
  { c with channel := patchedChannel cfg key text c.channel }

theorem admitted_patchedChannel {c : Channel} (h : c.Admitted) (key : String × String)
    (text : String) : (patchedChannel cfg key text c).Admitted := by
  unfold patchedChannel
  split_ifs
  · exact admitted_patchPorts cfg h text
  · exact h

def patchChannel (world : World) (key : String × String) (text : String) : World :=
  { world with
    channels := world.channels.map (patchedClassed cfg key text)
    admitted := by
      simp only [List.forall_mem_map]
      exact fun c hc => admitted_patchedChannel cfg (world.admitted c hc) key text
    distinct := by
      rw [List.map_map]
      have hkeys : (fun c : ClassedChannel => c.channel.key) ∘ patchedClassed cfg key text =
          fun c => c.channel.key := by
        funext c
        exact key_patchedChannel cfg key text c.channel
      rw [hkeys]
      exact world.distinct
    apart := by
      simp only [List.forall_mem_map]
      intro c hc
      change world.muxes.get (patchedChannel cfg key text c.channel).key = none
      rw [key_patchedChannel]
      exact world.apart c hc }

/-- A request of the daemon of `muxKey`. -/
def apply (muxKey : String × String) (world : World) : Request → World
  | .event _ _ _ => world
  | .patchChannelPorts key text => world.patchChannel cfg key text
  | .patchChannelStatus key statusLb =>
    { world with
      channelStatus := world.channelStatus.write
        (key, LoadBalancer.mergePatch (world.channelStatus.get key) statusLb) }
  | .saveConfigmap store _ state =>
    { world with
      configmaps := world.configmaps.set (store.namespace_, store.name) (store.save state) }
  | .patchMuxAnnotations patch =>
    world.modifyMux muxKey
      (fun mux => { mux with annotations := mux.annotations.mergePatch patch }) fun _ => rfl
  | .patchMuxPorts muxPorts =>
    world.modifyMux muxKey
      (fun mux => { mux with ports := muxPorts.map fun m => ⟨some m.name, m.port, some m.protocol⟩ })
      fun _ => rfl
  | .patchEndpoints desired =>
    { world with endpoints := world.endpoints.modify muxKey desired.patched }
  | .createEndpoints desired =>
    { world with endpoints := world.endpoints.set muxKey desired.created }

/-- The index `mux_channels`, for one mux. -/
def channelsOf (world : World) (muxKey : String × String) : List Channel :=
  (world.channels.filter fun c => (getMuxFromLbClass cfg c.lbClass).toOption = some muxKey).map
    ClassedChannel.channel

theorem channelsOf_sublist (world : World) (muxKey : String × String) :
    (world.channelsOf cfg muxKey).Sublist (world.channels.map ClassedChannel.channel) :=
  List.filter_sublist.map _

def view (world : World) (muxKey : String × String) : Option Cluster :=
  (world.muxes.get muxKey).map fun mux =>
    { mux := mux
      channels := world.channelsOf cfg muxKey
      channelStatus := world.channelStatus.filterKeys
        ((world.channelsOf cfg muxKey).map Channel.key).contains
      configmap := world.configmaps.get (configmapKey cfg mux)
      endpoints := world.endpoints.get muxKey
      admitted := fun c hc => by
        obtain ⟨c', hc', rfl⟩ := List.mem_map.mp ((channelsOf_sublist cfg world muxKey).subset hc)
        exact world.admitted c' hc'
      distinct := by
        have hdistinct := world.distinct
        rw [← Function.comp_def Channel.key ClassedChannel.channel, ← List.map_map] at hdistinct
        exact ((channelsOf_sublist cfg world muxKey).map _).nodup hdistinct }

def Separate (world : World) : Prop :=
  ∀ key key' mux mux', world.muxes.get key = some mux → world.muxes.get key' = some mux' →
    configmapKey cfg mux = configmapKey cfg mux' → key = key'

end View

/-- The daemon of `muxKey` sees this of the world. -/
structure Sees (cfg : Config) (world : World) (muxKey : String × String) (cluster : Cluster) :
    Prop where
  mux : world.muxes.get muxKey = some cluster.mux
  channels : cluster.channels = world.channelsOf cfg muxKey
  channelStatus : cluster.channelStatus =
    world.channelStatus.filterKeys fun key => key ∈ cluster.channels.map Channel.key
  configmap : cluster.configmap = world.configmaps.get (configmapKey cfg cluster.mux)
  endpoints : cluster.endpoints = world.endpoints.get muxKey

variable {cfg : Config} {world : World} {muxKey : String × String} {cluster : Cluster}

theorem view_eq_some_iff : world.view cfg muxKey = some cluster ↔ Sees cfg world muxKey cluster := by
  have hcontains : ∀ keys : List (String × String),
      keys.contains = fun key => decide (key ∈ keys) :=
    fun keys => funext fun key => List.contains_eq_mem key keys
  constructor
  · intro h
    obtain ⟨mux, hmux, rfl⟩ := Option.map_eq_some_iff.mp h
    exact ⟨hmux, rfl, by rw [hcontains], rfl, rfl⟩
  · intro h
    have hstatus := h.channelStatus
    rw [h.channels, ← hcontains] at hstatus
    rw [view, h.mux, Option.map_some, Option.some.injEq]
    exact Cluster.mk.injEq .. ▸
      ⟨rfl, h.channels.symm, hstatus.symm, h.configmap.symm, h.endpoints.symm⟩

theorem view_congr {world' : World} (hmux : world'.muxes.get muxKey = world.muxes.get muxKey)
    (hchannels : world'.channelsOf cfg muxKey = world.channelsOf cfg muxKey)
    (hstatus : (world'.channelStatus.filterKeys fun key =>
        key ∈ (world.channelsOf cfg muxKey).map Channel.key) =
      world.channelStatus.filterKeys fun key => key ∈ (world.channelsOf cfg muxKey).map Channel.key)
    (hconfigmap : ∀ mux, world.muxes.get muxKey = some mux →
      world'.configmaps.get (configmapKey cfg mux) = world.configmaps.get (configmapKey cfg mux))
    (hendpoints : world'.endpoints.get muxKey = world.endpoints.get muxKey) :
    world'.view cfg muxKey = world.view cfg muxKey := by
  ext cluster
  rw [view_eq_some_iff, view_eq_some_iff]
  constructor
  · intro h
    have hseen : world.muxes.get muxKey = some cluster.mux := hmux.symm.trans h.mux
    have hlist : cluster.channels = world.channelsOf cfg muxKey := h.channels.trans hchannels
    refine ⟨hseen, hlist, ?_, h.configmap.trans (hconfigmap _ hseen), h.endpoints.trans hendpoints⟩
    have hfiltered := h.channelStatus
    rw [hlist] at hfiltered ⊢
    exact hfiltered.trans hstatus
  · intro h
    refine ⟨hmux.trans h.mux, h.channels.trans hchannels.symm, ?_,
      h.configmap.trans (hconfigmap _ h.mux).symm, h.endpoints.trans hendpoints.symm⟩
    have hfiltered := h.channelStatus
    rw [h.channels] at hfiltered ⊢
    exact hfiltered.trans hstatus.symm

/-- A channel belongs to one mux at most. -/
theorem eq_of_mem_channelsOf {muxKey' key : String × String}
    (h : key ∈ (world.channelsOf cfg muxKey).map Channel.key)
    (h' : key ∈ (world.channelsOf cfg muxKey').map Channel.key) : muxKey = muxKey' := by
  simp only [channelsOf, List.map_map, List.mem_map, List.mem_filter, Function.comp_apply,
    decide_eq_true_eq] at h h'
  obtain ⟨c, ⟨hc, hclass⟩, hkey⟩ := h
  obtain ⟨c', ⟨hc', hclass'⟩, hkey'⟩ := h'
  obtain rfl := List.inj_on_of_nodup_map world.distinct hc hc' (hkey.trans hkey'.symm)
  exact Option.some.inj (hclass.symm.trans hclass')

theorem get_muxes_of_mem_channelsOf {key : String × String}
    (h : key ∈ (world.channelsOf cfg muxKey).map Channel.key) : world.muxes.get key = none := by
  simp only [channelsOf, List.map_map, List.mem_map, List.mem_filter, Function.comp_apply] at h
  obtain ⟨c, ⟨hc, -⟩, rfl⟩ := h
  exact world.apart c hc

theorem channelsOf_patchChannel (key : String × String) (text : String) :
    (world.patchChannel cfg key text).channelsOf cfg muxKey =
      (world.channelsOf cfg muxKey).map (patchedChannel cfg key text) := by
  simp only [channelsOf, patchChannel, List.filter_map, List.map_map]
  rfl

theorem map_patchedChannel_of_notMem {channels : List Channel} {key : String × String}
    (h : key ∉ channels.map Channel.key) (text : String) :
    channels.map (patchedChannel cfg key text) = channels := by
  refine (List.map_congr_left fun c hc => ?_).trans (List.map_id channels)
  apply if_neg
  rintro rfl
  exact h (List.mem_map_of_mem hc)

def Fits (cfg : Config) (cluster : Cluster) : Request → Prop
  | .patchChannelPorts key _ => key ∈ cluster.channels.map Channel.key
  | .patchChannelStatus key _ => key ∈ cluster.channels.map Channel.key
  | .saveConfigmap store _ _ => store = muxStore cfg cluster.mux
  -- The annotations say where the state is stored.
  | .patchMuxAnnotations patch =>
    muxStore cfg { cluster.mux with annotations := cluster.mux.annotations.mergePatch patch } =
      muxStore cfg cluster.mux
  | _ => True

variable {request : Request}

/-- To the view of its own daemon a request does what it does to the cluster of one mux. -/
theorem sees_apply_self (h : Sees cfg world muxKey cluster) (hfits : Fits cfg cluster request) :
    Sees cfg (world.apply cfg muxKey request) muxKey (cluster.apply cfg request) := by
  obtain ⟨hmux, hchannels, hstatus, hconfigmap, hendpoints⟩ := h
  cases request with
  | event object type event => exact ⟨hmux, hchannels, hstatus, hconfigmap, hendpoints⟩
  | patchChannelPorts key text =>
    refine ⟨hmux, ?_, ?_, hconfigmap, hendpoints⟩
    · change cluster.channels.map _ = (world.patchChannel cfg key text).channelsOf cfg muxKey
      rw [channelsOf_patchChannel, hchannels]
    · change cluster.channelStatus = world.channelStatus.filterKeys fun j =>
        j ∈ (cluster.channels.map (patchedChannel cfg key text)).map Channel.key
      rw [List.map_map, show Channel.key ∘ patchedChannel cfg key text = Channel.key from
        funext fun c => key_patchedChannel cfg key text c]
      exact hstatus
  | patchChannelStatus key statusLb =>
    refine ⟨hmux, hchannels, ?_, hconfigmap, hendpoints⟩
    have hkept : decide (key ∈ cluster.channels.map Channel.key) = true := decide_eq_true hfits
    change cluster.channelStatus.write (key, LoadBalancer.mergePatch
        (cluster.channelStatus.get key) statusLb) = (world.channelStatus.write (key,
      LoadBalancer.mergePatch (world.channelStatus.get key) statusLb)).filterKeys fun j =>
        j ∈ cluster.channels.map Channel.key
    rw [Dict.filterKeys_write_of_kept hkept, ← hstatus, hstatus, Dict.get_filterKeys, if_pos hkept]
  | saveConfigmap store create state =>
    refine ⟨hmux, hchannels, hstatus, ?_, hendpoints⟩
    obtain rfl : store = muxStore cfg cluster.mux := hfits
    exact (Dict.get_set_self _ _ _).symm
  | patchMuxAnnotations patch =>
    refine ⟨?_, hchannels, hstatus, ?_, hendpoints⟩
    · change (world.muxes.modify muxKey _).get muxKey = _
      rw [Dict.get_modify, if_pos rfl, hmux]
      rfl
    · change cluster.configmap = world.configmaps.get (configmapKey cfg _)
      rw [configmapKey, show muxStore cfg (cluster.apply cfg (.patchMuxAnnotations patch)).mux =
        muxStore cfg cluster.mux from hfits]
      exact hconfigmap
  | patchMuxPorts muxPorts =>
    refine ⟨?_, hchannels, hstatus, hconfigmap, hendpoints⟩
    change (world.muxes.modify muxKey _).get muxKey = _
    rw [Dict.get_modify, if_pos rfl, hmux]
    rfl
  | patchEndpoints desired =>
    refine ⟨hmux, hchannels, hstatus, hconfigmap, ?_⟩
    change cluster.endpoints.map _ = (world.endpoints.modify muxKey _).get muxKey
    rw [Dict.get_modify, if_pos rfl, hendpoints]
  | createEndpoints desired =>
    exact ⟨hmux, hchannels, hstatus, hconfigmap, (Dict.get_set_self _ _ _).symm⟩

theorem view_apply_of_ne (h : Sees cfg world muxKey cluster) (hfits : Fits cfg cluster request)
    (hseparate : Separate cfg world) {muxKey' : String × String} (hne : muxKey' ≠ muxKey) :
    (world.apply cfg muxKey request).view cfg muxKey' = world.view cfg muxKey' := by
  have hforeign : ∀ key ∈ cluster.channels.map Channel.key,
      key ∉ (world.channelsOf cfg muxKey').map Channel.key := by
    intro key hkey hkey'
    rw [h.channels] at hkey
    exact hne (eq_of_mem_channelsOf hkey' hkey)
  cases request with
  | event object type event => rfl
  | patchChannelPorts key text =>
    refine view_congr rfl ?_ rfl (fun _ _ => rfl) rfl
    change (world.patchChannel cfg key text).channelsOf cfg muxKey' = _
    rw [channelsOf_patchChannel, map_patchedChannel_of_notMem (hforeign key hfits)]
  | patchChannelStatus key statusLb =>
    refine view_congr rfl rfl ?_ (fun _ _ => rfl) rfl
    exact Dict.filterKeys_write_of_dropped (decide_eq_false (hforeign key hfits))
  | saveConfigmap store create state =>
    refine view_congr rfl rfl rfl (fun mux hmux => ?_) rfl
    obtain rfl : store = muxStore cfg cluster.mux := hfits
    apply Dict.get_set_ne
    intro hsame
    exact hne (hseparate muxKey muxKey' cluster.mux mux h.mux hmux hsame).symm
  | patchMuxAnnotations patch =>
    refine view_congr ?_ rfl rfl (fun _ _ => rfl) rfl
    exact (Dict.get_modify _ _ _ _).trans (if_neg (Ne.symm hne))
  | patchMuxPorts muxPorts =>
    refine view_congr ?_ rfl rfl (fun _ _ => rfl) rfl
    exact (Dict.get_modify _ _ _ _).trans (if_neg (Ne.symm hne))
  | patchEndpoints desired =>
    refine view_congr rfl rfl rfl (fun _ _ => rfl) ?_
    exact (Dict.get_modify _ _ _ _).trans (if_neg (Ne.symm hne))
  | createEndpoints desired =>
    exact view_congr rfl rfl rfl (fun _ _ => rfl) (Dict.get_set_ne _ (Ne.symm hne) _)

theorem separate_modifyMux (hseparate : Separate cfg world) {f : MuxService → MuxService}
    (hf : ∀ mux, ((f mux).namespace_, (f mux).name) = (mux.namespace_, mux.name))
    (hstored : ∀ mux, world.muxes.get muxKey = some mux →
      configmapKey cfg (f mux) = configmapKey cfg mux) :
    Separate cfg (world.modifyMux muxKey f hf) := by
  have hbefore : ∀ key mux, (world.modifyMux muxKey f hf).muxes.get key = some mux →
      ∃ mux', world.muxes.get key = some mux' ∧ configmapKey cfg mux = configmapKey cfg mux' := by
    intro key mux hmux
    change (world.muxes.modify muxKey f).get key = some mux at hmux
    rw [Dict.get_modify] at hmux
    split_ifs at hmux with hkey
    · obtain ⟨mux', hmux', rfl⟩ := Option.map_eq_some_iff.mp hmux
      exact ⟨mux', hmux', hstored mux' (hkey ▸ hmux')⟩
    · exact ⟨mux, hmux, rfl⟩
  intro key key' mux mux' hmux hmux' hsame
  obtain ⟨old, hold, hkept⟩ := hbefore key mux hmux
  obtain ⟨old', hold', hkept'⟩ := hbefore key' mux' hmux'
  exact hseparate key key' old old' hold hold' (hkept.symm.trans (hsame.trans hkept'))

theorem separate_apply (h : Sees cfg world muxKey cluster) (hfits : Fits cfg cluster request)
    (hseparate : Separate cfg world) : Separate cfg (world.apply cfg muxKey request) := by
  cases request with
  | patchMuxAnnotations patch =>
    refine @separate_modifyMux cfg world muxKey hseparate
      (fun mux => { mux with annotations := mux.annotations.mergePatch patch }) (fun _ => rfl)
      fun mux hmux => ?_
    obtain rfl := Option.some.inj (h.mux.symm.trans hmux)
    have hstore : muxStore cfg { cluster.mux with
        annotations := cluster.mux.annotations.mergePatch patch } = muxStore cfg cluster.mux := hfits
    rw [configmapKey, configmapKey, hstore]
  | patchMuxPorts muxPorts =>
    exact @separate_modifyMux cfg world muxKey hseparate
      (fun mux => { mux with
        ports := muxPorts.map fun m => ⟨some m.name, m.port, some m.protocol⟩ })
      (fun _ => rfl) fun _ _ => rfl
  | _ => exact hseparate

end World

/-! ## The daemons -/

open World

variable {cfg : Config}

/-- The daemons of all muxes, which see and write what the cluster of their mux has. -/
def daemons (cfg : Config) : Interleaving.Parties (String × String) World Cluster Request where
  view world muxKey := world.view cfg muxKey
  apply muxKey world request := world.apply cfg muxKey request
  alone cluster request := cluster.apply cfg request
  emits cluster requests := ∃ s, requests = (iteration cfg s cluster).emitted

/-- A request of an iteration fits, also when other requests of it have taken effect before. -/
theorem fits_of_inRound {world : World} {muxKey : String × String} {cluster : Cluster}
    {done : List Request} {request : Request}
    (h : (daemons cfg).InRound world muxKey cluster done request) :
    Sees cfg world muxKey (cluster.applyAll cfg done) ∧
      Fits cfg (cluster.applyAll cfg done) request := by
  obtain ⟨⟨requests, ⟨s, rfl⟩, hmem, hpart⟩, hview⟩ := h
  have hown : OwnFieldsOnly cfg cluster (cluster.applyAll cfg done) :=
    ownFieldsOnly_of_interruption (.iteration hpart.subset)
  have hstore := muxStore_of_ownFields hown
  refine ⟨view_eq_some_iff.mp hview, ?_⟩
  have hchannel : ∀ c t, PassMeets cfg (cluster.passInput s) c t →
      c.key ∈ (cluster.applyAll cfg done).channels.map Channel.key := by
    intro c t hmeets
    rw [keys_of_ownFields hown]
    exact List.mem_map_of_mem ((s.index.perm _).mem_iff.mp (mem_channels_of_meets hmeets))
  cases hwrites : request.writes with
  | false =>
    cases request with
    | event => trivial
    | _ => cases hwrites
  | true =>
    obtain ⟨-, hcause⟩ := caused_of_mem hwrites hmem
    cases hcause with
    | channelPorts hmeets => exact hchannel _ _ hmeets
    | channelStatus hmeets => exact hchannel _ _ hmeets
    | configmap create hpass hstored hsaved => exact hstored.trans hstore.symm
    | @muxAnnotations p texts patch hpass hpatch =>
      have hdone : done ++ [.patchMuxAnnotations patch] ⊆ (iteration cfg s cluster).emitted :=
        List.append_subset.mpr ⟨hpart.subset, List.cons_subset.mpr ⟨hmem, List.nil_subset _⟩⟩
      have hnext := muxStore_of_ownFields (ownFieldsOnly_of_interruption (.iteration hdone))
      rw [Cluster.applyAll_append] at hnext
      exact hnext.trans hstore.symm
    | _ => trivial

theorem local_daemons (cfg : Config) : (daemons cfg).Local (Separate cfg) where
  own := by
    intro world muxKey cluster done request _ hround
    obtain ⟨hsees, hfits⟩ := fits_of_inRound hround
    exact view_eq_some_iff.mpr (sees_apply_self hsees hfits)
  others := by
    intro world muxKey cluster done request hseparate hround muxKey' hne
    obtain ⟨hsees, hfits⟩ := fits_of_inRound hround
    exact view_apply_of_ne hsees hfits hseparate hne
  admits := by
    intro world muxKey cluster done request hseparate hround
    obtain ⟨hsees, hfits⟩ := fits_of_inRound hround
    exact separate_apply hsees hfits hseparate

inductive ApiObject where
  | service (key : String × String)
  | configmap (key : String × String)
  | endpoints (key : String × String)

def Request.object (muxKey : String × String) : Request → Option ApiObject
  | .event _ _ _ => none
  | .patchChannelPorts key _ => some (.service key)
  | .patchChannelStatus key _ => some (.service key)
  | .saveConfigmap store _ _ => some (.configmap (store.namespace_, store.name))
  | .patchMuxAnnotations _ => some (.service muxKey)
  | .patchMuxPorts _ => some (.service muxKey)
  | .patchEndpoints _ => some (.endpoints muxKey)
  | .createEndpoints _ => some (.endpoints muxKey)

/-- The object is of the mux or of one of its channels. -/
def Owns (cfg : Config) (world : World) (muxKey : String × String) : ApiObject → Prop
  | .service key => key = muxKey ∧ world.muxes.get muxKey ≠ none ∨
      key ∈ (world.channelsOf cfg muxKey).map Channel.key
  | .configmap key => ∃ mux, world.muxes.get muxKey = some mux ∧ configmapKey cfg mux = key
  | .endpoints key => key = muxKey

theorem owns_of_inRound {world : World} {muxKey : String × String} {cluster : Cluster}
    {done : List Request} {request : Request} {object : ApiObject}
    (h : (daemons cfg).InRound world muxKey cluster done request)
    (hobject : request.object muxKey = some object) : Owns cfg world muxKey object := by
  obtain ⟨hsees, hfits⟩ := fits_of_inRound h
  have hmux : world.muxes.get muxKey ≠ none := by simp [hsees.mux]
  cases request with
  | event => exact nomatch hobject
  | patchChannelPorts key text =>
    obtain rfl := Option.some.inj hobject
    exact Or.inr (hsees.channels ▸ hfits)
  | patchChannelStatus key statusLb =>
    obtain rfl := Option.some.inj hobject
    exact Or.inr (hsees.channels ▸ hfits)
  | saveConfigmap store create state =>
    obtain rfl := Option.some.inj hobject
    obtain rfl : store = muxStore cfg (cluster.applyAll cfg done).mux := hfits
    exact ⟨_, hsees.mux, rfl⟩
  | patchMuxAnnotations patch =>
    obtain rfl := Option.some.inj hobject
    exact Or.inl ⟨rfl, hmux⟩
  | patchMuxPorts muxPorts =>
    obtain rfl := Option.some.inj hobject
    exact Or.inl ⟨rfl, hmux⟩
  | patchEndpoints desired =>
    obtain rfl := Option.some.inj hobject
    rfl
  | createEndpoints desired =>
    obtain rfl := Option.some.inj hobject
    rfl

theorem eq_of_owns {world : World} (hseparate : Separate cfg world) {muxKey muxKey' : String × String}
    {object : ApiObject} (h : Owns cfg world muxKey object) (h' : Owns cfg world muxKey' object) :
    muxKey = muxKey' := by
  cases object with
  | service key =>
    obtain ⟨rfl, hmux⟩ | hchannel := h
    · obtain ⟨rfl, -⟩ | hchannel' := h'
      · rfl
      · exact absurd (get_muxes_of_mem_channelsOf hchannel') hmux
    · obtain ⟨rfl, hmux⟩ | hchannel' := h'
      · exact absurd (get_muxes_of_mem_channelsOf hchannel) hmux
      · exact eq_of_mem_channelsOf hchannel hchannel'
  | configmap key =>
    obtain ⟨mux, hmux, rfl⟩ := h
    obtain ⟨mux', hmux', hsame⟩ := h'
    exact hseparate muxKey muxKey' mux mux' hmux hmux' hsame.symm
  | endpoints key => exact h.symm.trans h'

/-- An established channel stays established, whatever the other muxes do. -/
theorem holds_of_alone {edits : String × String → Option Cluster → Option Cluster → Prop}
    {muxKey : String × String} {c : Channel} {explicitPorts : Dict String PortRequest}
    {served : List ResolvedPort} {cluster : Cluster} {seen : Option Cluster}
    (hedits : ∀ before after, edits muxKey (some before) after →
      ∃ edited, after = some edited ∧ Step cfg c explicitPorts served before edited)
    (hholds : Holds cfg c explicitPorts served cluster)
    (hrun : Relation.ReflTransGen ((daemons cfg).Alone edits muxKey) (some cluster) seen) :
    ∃ later, seen = some later ∧ Holds cfg c explicitPorts served later := by
  induction hrun with
  | refl => exact ⟨cluster, rfl, hholds⟩
  | tail _ hstep ih =>
    obtain ⟨mid, rfl, hmid⟩ := ih
    cases hstep with
    | @round x requests done hemitted hpart =>
      obtain ⟨s, rfl⟩ := hemitted
      exact ⟨_, rfl, holds_step hmid (.iteration hpart.subset)⟩
    | edit hedited =>
      obtain ⟨edited, rfl, hstep⟩ := hedits mid _ hedited
      exact ⟨edited, rfl, holds_step hmid hstep⟩

/-- The muxes `mux` and `edge`, with a channel each. -/
def sampleWorld : World where
  muxes := Dict.ofList [(("default", "mux"), sampleCluster.mux),
    (("default", "edge"), { sampleCluster.mux with name := "edge" })]
  channels := [⟨"svc-mux.nowake.ai/mux",
      sampleChannel "web" "http" 81 [("svc-mux.nowake.ai/external-ports", "http:auto")]⟩,
    ⟨"svc-mux.nowake.ai/edge", sampleChannel "api" "http" 80 []⟩]
  channelStatus := Dict.empty
  configmaps := Dict.empty
  endpoints := Dict.empty
  keyed := by
    intro key mux hmux
    rw [Dict.get_eq_some_iff] at hmux
    rcases List.mem_pair.mp hmux with h | h <;> (obtain ⟨rfl, rfl⟩ := Prod.mk.inj h; rfl)
  admitted := by decide +kernel
  distinct := by decide +kernel
  apart := by
    intro c hc
    rw [Dict.get_eq_none_iff]
    revert c
    decide +kernel

theorem separate_sampleWorld : Separate sampleConfig sampleWorld := by
  intro key key' mux mux' hmux hmux' hsame
  rw [Dict.get_eq_some_iff] at hmux hmux'
  rcases List.mem_pair.mp hmux with h | h <;> rcases List.mem_pair.mp hmux' with h' | h' <;>
    (obtain ⟨rfl, rfl⟩ := Prod.mk.inj h; obtain ⟨rfl, rfl⟩ := Prod.mk.inj h')
  · rfl
  · exact absurd hsame (by decide +kernel)
  · exact absurd hsame (by decide +kernel)
  · rfl

end SvcLbMux
