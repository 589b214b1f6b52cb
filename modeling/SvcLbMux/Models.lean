import SvcLbMux.Config
import SvcLbMux.Library.Dict

namespace SvcLbMux

open Py

abbrev PortKey := Int × String

structure MuxPort where
  name : String
  port : Int
  protocol : String
deriving DecidableEq

def MuxPort.key (m : MuxPort) : PortKey := (m.port, m.protocol)

structure MuxEp where
  ip : String
  port : Int
  protocol : String
deriving DecidableEq

/-- An entry of `spec.ports` of a Service. An unnamed port has no `name`. -/
structure ServicePort where
  name : Option String
  port : Int
  protocol : Option String
deriving DecidableEq

namespace ServicePort

/-- `port.get("protocol", "TCP")`. -/
def protocolOrTcp (p : ServicePort) : String := p.protocol.getD "TCP"

/-- `port["name"]`, where it is known to be there. -/
def portName (p : ServicePort) : String := p.name.getD ""

/-- `not port.get("name")`. -/
def unnamed (p : ServicePort) : Bool := p.portName = ""

end ServicePort

structure Channel where
  namespace_ : String
  name : String
  annotations : Dict String String
  ports : List ServicePort
deriving DecidableEq

namespace Channel

/-- `(metadata.namespace, metadata.name)`. -/
def key (c : Channel) : String × String := (c.namespace_, c.name)

/-- `annotations.get(key, "")`. -/
def annotation (c : Channel) (key : String) : String := (c.annotations.get key).getD ""

end Channel

structure MuxService where
  namespace_ : String
  name : String
  annotations : Dict String String
  loadBalancerClass : Option String
  ports : List ServicePort

/-- An entry of `status.loadBalancer.ingress` of a Service. -/
structure Ingress where
  hostname : Option String
  ip : Option String
  ipMode : Option String
  ports : List (Int × String × Option String)
deriving DecidableEq

structure Event where
  reason : String
  message : String
deriving DecidableEq

def isDnsLabel (s : String) : Bool :=
  let alnum (c : Char) : Bool := ('a' ≤ c && c ≤ 'z') || ('0' ≤ c && c ≤ '9')
  s.toList.length ≤ 63 && s.toList.all (fun c => alnum c || c = '-') &&
    s.toList.head?.any alnum && s.toList.getLast?.any alnum

/-- What the Kubernetes API server guarantees of a port of a Service. -/
structure ServicePort.Admitted (p : ServicePort) : Prop where
  name : ∀ n ∈ p.name, isDnsLabel n = true
  port : 1 ≤ p.port ∧ p.port ≤ 65535
  protocol : p.protocolOrTcp ∈ ["TCP", "UDP", "SCTP"]

structure Channel.Admitted (c : Channel) : Prop where
  namespace_ : isDnsLabel c.namespace_ = true
  name : isDnsLabel c.name = true
  ports : ∀ p ∈ c.ports, p.Admitted
  names : (c.ports.map (·.name)).Nodup

instance (p : ServicePort) : Decidable p.Admitted :=
  decidable_of_iff ((∀ n ∈ p.name, isDnsLabel n = true) ∧ (1 ≤ p.port ∧ p.port ≤ 65535) ∧
      p.protocolOrTcp ∈ ["TCP", "UDP", "SCTP"])
    ⟨fun h => ⟨h.1, h.2.1, h.2.2⟩, fun h => ⟨h.name, h.port, h.protocol⟩⟩

instance (c : Channel) : Decidable c.Admitted :=
  decidable_of_iff (isDnsLabel c.namespace_ = true ∧ isDnsLabel c.name = true ∧
      (∀ p ∈ c.ports, p.Admitted) ∧ (c.ports.map (·.name)).Nodup)
    ⟨fun h => ⟨h.1, h.2.1, h.2.2.1, h.2.2.2⟩, fun h => ⟨h.namespace_, h.name, h.ports, h.names⟩⟩

/-! ## The characters of a label -/

theorem char_of_isDnsLabel {s : String} (h : isDnsLabel s = true) {c : Char} (hc : c ∈ s.toList) :
    (('a' ≤ c ∧ c ≤ 'z') ∨ ('0' ≤ c ∧ c ≤ '9')) ∨ c = '-' := by
  simp only [isDnsLabel, Bool.and_eq_true, List.all_eq_true, Bool.or_eq_true, decide_eq_true_eq] at h
  exact h.1.1.2 c hc

theorem notMem_of_isDnsLabel {s : String} (h : isDnsLabel s = true) {c : Char}
    (hc : ¬ ((('a' ≤ c ∧ c ≤ 'z') ∨ ('0' ≤ c ∧ c ≤ '9')) ∨ c = '-')) : c ∉ s.toList :=
  fun hm => hc (char_of_isDnsLabel h hm)

theorem ne_empty_of_isDnsLabel {s : String} (h : isDnsLabel s = true) : s ≠ "" := by
  rintro rfl
  revert h
  decide

theorem toNat_of_isDnsLabel {s : String} (h : isDnsLabel s = true) {c : Char}
    (hc : c ∈ s.toList) :
    (97 ≤ c.toNat ∧ c.toNat ≤ 122) ∨ (48 ≤ c.toNat ∧ c.toNat ≤ 57) ∨ c.toNat = 45 := by
  rcases char_of_isDnsLabel h hc with (⟨hl, hu⟩ | ⟨hl, hu⟩) | rfl
  · exact Or.inl ⟨hl, hu⟩
  · exact Or.inr (Or.inl ⟨hl, hu⟩)
  · exact Or.inr (Or.inr rfl)

theorem isSpace_of_isDnsLabel {s : String} (h : isDnsLabel s = true) {c : Char}
    (hc : c ∈ s.toList) : isSpace c = false := by
  have hnat := toNat_of_isDnsLabel h hc
  simp only [isSpace, Bool.or_eq_false_iff, Bool.and_eq_false_imp, decide_eq_true_eq,
    decide_eq_false_iff_not, List.mem_cons, List.not_mem_nil, or_false]
  omega

end SvcLbMux
