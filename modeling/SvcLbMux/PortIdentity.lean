import Mathlib.Data.Finset.Basic
import SvcLbMux.Models

namespace SvcLbMux

open Py

/-- The name of a mux port: seven hex digits of the digest of the joined parts. -/
def portHash (cfg : Config) (parts : List String) : String :=
  cfg.shortDigest ("/".intercalate parts)

/-- `f"{namespace}/{name}:{mux_name}"`, the owner of a mux port in every ownership map. -/
def ownerText (namespace_ name muxName : String) : String :=
  namespace_ ++ "/" ++ name ++ ":" ++ muxName

structure PortAllocationRef where
  namespace_ : String
  service : String
  portName : String
  protocol : String
deriving DecidableEq

namespace PortAllocationRef

def fromChannelPort (channel : Channel) (port : ServicePort) : PortAllocationRef :=
  ⟨channel.namespace_, channel.name, port.portName, port.protocolOrTcp⟩

/-- `f"{protocol}:{namespace}:{service}:{port_name}"`. -/
def key (ref : PortAllocationRef) : String :=
  ref.protocol ++ ":" ++ ref.namespace_ ++ ":" ++ ref.service ++ ":" ++ ref.portName

def Plain (ref : PortAllocationRef) : Prop :=
  ':' ∉ ref.protocol.toList ∧ ':' ∉ ref.namespace_.toList ∧ ':' ∉ ref.service.toList ∧
    ':' ∉ ref.portName.toList

end PortAllocationRef

namespace Channel

variable (cfg : Config) (c : Channel)

def muxName (p : ServicePort) : String := portHash cfg [c.namespace_, c.name, p.portName]

def owner (p : ServicePort) : String := ownerText c.namespace_ c.name (c.muxName cfg p)

def claimKey (p : ServicePort) : String := (PortAllocationRef.fromChannelPort c p).key

end Channel

/-- The digest does not collide on the declared ports of the channels. -/
def DigestInjectiveOn (cfg : Config) (channels : List Channel) : Prop :=
  ∀ c ∈ channels, ∀ p ∈ c.ports, ∀ d ∈ channels, ∀ q ∈ d.ports,
    c.muxName cfg p = d.muxName cfg q → c.key = d.key ∧ p.portName = q.portName

/-! ## Reading joined texts back -/

theorem PortAllocationRef.toList_key (ref : PortAllocationRef) :
    ref.key.toList = ref.protocol.toList ++ ':' :: (ref.namespace_.toList ++ ':' ::
      (ref.service.toList ++ ':' :: ref.portName.toList)) := by
  simp [key, String.toList_append]

/-- The key of a reference whose fields are plain belongs to that reference alone, whatever the
other fields hold: the separators of the two keys are counted. -/
theorem PortAllocationRef.eq_of_key_eq {ref plain : PortAllocationRef} (hplain : plain.Plain)
    (h : ref.key = plain.key) : ref = plain := by
  obtain ⟨h1, h2, h3, h4⟩ := hplain
  have hl := congrArg String.toList h
  rw [toList_key, toList_key] at hl
  have hcount := congrArg (List.count ':') hl
  simp only [List.count_append, List.count_cons_self, List.count_eq_zero_of_not_mem h1,
    List.count_eq_zero_of_not_mem h2, List.count_eq_zero_of_not_mem h3,
    List.count_eq_zero_of_not_mem h4] at hcount
  have hr1 : ':' ∉ ref.protocol.toList := List.count_eq_zero.mp (by omega)
  have hr2 : ':' ∉ ref.namespace_.toList := List.count_eq_zero.mp (by omega)
  have hr3 : ':' ∉ ref.service.toList := List.count_eq_zero.mp (by omega)
  obtain ⟨e1, hl⟩ := append_cons_inj hr1 h1 hl
  obtain ⟨e2, hl⟩ := append_cons_inj hr2 h2 hl
  obtain ⟨e3, e4⟩ := append_cons_inj hr3 h3 hl
  cases ref
  cases plain
  simp only [mk.injEq]
  exact ⟨String.toList_inj.mp e2, String.toList_inj.mp e3, String.toList_inj.mp e4,
    String.toList_inj.mp e1⟩

theorem toList_ownerText (namespace_ name muxName : String) :
    (ownerText namespace_ name muxName).toList =
      namespace_.toList ++ '/' :: (name.toList ++ ':' :: muxName.toList) := by
  simp [ownerText, String.toList_append]

/-- Owners carry their mux name in their last seven characters. -/
theorem muxName_eq_of_ownerText_eq {ns ns' name name' m m' : String}
    (hm : m.toList.length = m'.toList.length)
    (h : ownerText ns name m = ownerText ns' name' m') : m = m' := by
  have hl := congrArg String.toList h
  rw [toList_ownerText, toList_ownerText, ← List.cons_append, ← List.cons_append,
    ← List.append_assoc, ← List.append_assoc] at hl
  have hparts : (ns.toList ++ '/' :: name.toList ++ [':']) ++ m.toList =
      (ns'.toList ++ '/' :: name'.toList ++ [':']) ++ m'.toList := by
    simpa using hl
  exact String.toList_inj.mp (List.append_inj' hparts hm).2

theorem eq_of_ownerText_eq {ns ns' name name' m m' : String} (hns : '/' ∉ ns.toList)
    (hns' : '/' ∉ ns'.toList) (hm : m.toList.length = m'.toList.length)
    (h : ownerText ns name m = ownerText ns' name' m') : ns = ns' ∧ name = name' ∧ m = m' := by
  obtain rfl := muxName_eq_of_ownerText_eq hm h
  have hl := congrArg String.toList h
  rw [toList_ownerText, toList_ownerText] at hl
  obtain ⟨e1, hl⟩ := append_cons_inj hns hns' hl
  exact ⟨String.toList_inj.mp e1, String.toList_inj.mp (List.append_inj_left' hl rfl), rfl⟩

section Admitted

variable {cfg : Config} {c d : Channel} {p q : ServicePort}

theorem length_muxName : (c.muxName cfg p).toList.length = 7 := cfg.length_shortDigest _

theorem muxName_of_key_eq (h : c.key = d.key) (p : ServicePort) : c.muxName cfg p = d.muxName cfg p := by
  obtain ⟨hnamespace, hname⟩ := Prod.mk.inj h
  rw [Channel.muxName, Channel.muxName, hnamespace, hname]

theorem owner_of_key_eq (h : c.key = d.key) (p : ServicePort) : c.owner cfg p = d.owner cfg p := by
  obtain ⟨hnamespace, hname⟩ := Prod.mk.inj h
  rw [Channel.owner, Channel.owner, muxName_of_key_eq h, hnamespace, hname]

theorem claimKey_of_key_eq (h : c.key = d.key) (p : ServicePort) : c.claimKey p = d.claimKey p := by
  obtain ⟨hnamespace, hname⟩ := Prod.mk.inj h
  simp only [Channel.claimKey, PortAllocationRef.fromChannelPort, hnamespace, hname]

theorem plain_of_admitted (hc : c.Admitted) (hp : p ∈ c.ports) :
    (PortAllocationRef.fromChannelPort c p).Plain := by
  have hlabel : ∀ {s : String}, isDnsLabel s = true → ':' ∉ s.toList :=
    fun hs => notMem_of_isDnsLabel hs (by decide)
  refine ⟨?_, hlabel hc.namespace_, hlabel hc.name, ?_⟩
  · have hproto := (hc.ports p hp).protocol
    change ':' ∉ p.protocolOrTcp.toList
    revert hproto
    generalize p.protocolOrTcp = s
    intro hs
    simp only [List.mem_cons, List.not_mem_nil, or_false] at hs
    rcases hs with rfl | rfl | rfl <;> decide
  · change ':' ∉ (p.name.getD "").toList
    cases hn : p.name with
    | none => decide
    | some n => exact hlabel ((hc.ports p hp).name n hn)

theorem ref_eq_of_claimKey_eq (ref : PortAllocationRef) (hc : c.Admitted) (hp : p ∈ c.ports)
    (h : ref.key = c.claimKey p) : ref = PortAllocationRef.fromChannelPort c p :=
  PortAllocationRef.eq_of_key_eq (plain_of_admitted hc hp) h

theorem eq_of_claimKey_eq (hc : c.Admitted) (hp : p ∈ c.ports)
    (h : d.claimKey q = c.claimKey p) :
    d.key = c.key ∧ q.portName = p.portName ∧ q.protocolOrTcp = p.protocolOrTcp := by
  have href := ref_eq_of_claimKey_eq (.fromChannelPort d q) hc hp h
  simp only [PortAllocationRef.fromChannelPort, PortAllocationRef.mk.injEq] at href
  exact ⟨Prod.ext href.1 href.2.1, href.2.2.1, href.2.2.2⟩

theorem key_eq_of_owner_eq (hc : c.Admitted) (hd : d.Admitted)
    (h : c.owner cfg p = d.owner cfg q) : c.key = d.key := by
  obtain ⟨h1, h2, -⟩ := eq_of_ownerText_eq (notMem_of_isDnsLabel hc.namespace_ (by decide))
    (notMem_of_isDnsLabel hd.namespace_ (by decide))
    (length_muxName.trans length_muxName.symm) h
  exact Prod.ext h1 h2

theorem muxName_eq_of_owner_eq (h : c.owner cfg p = d.owner cfg q) :
    c.muxName cfg p = d.muxName cfg q :=
  muxName_eq_of_ownerText_eq (length_muxName.trans length_muxName.symm) h

theorem eq_of_portName_eq (hnames : (c.ports.map (·.name)).Nodup) (hp : p ∈ c.ports)
    (hq : q ∈ c.ports) (hnamed : p.unnamed = false) (h : p.portName = q.portName) : p = q := by
  apply List.inj_on_of_nodup_map hnames hp hq
  simp only [ServicePort.unnamed, decide_eq_false_iff_not] at hnamed
  simp only [ServicePort.portName] at h hnamed
  cases hpn : p.name with
  | none => simp [hpn] at hnamed
  | some n =>
    cases hqn : q.name with
    | none => simp [h, hqn] at hnamed
    | some m => simpa [hpn, hqn] using h

end Admitted

end SvcLbMux
