import Mathlib.Data.Finset.Card
import SvcLbMux.Models

namespace SvcLbMux

open Py

variable (cfg : Config) (mux : MuxService)

def requestedMaxPorts : Except ValueError (Option Int) :=
  let value := (mux.annotations.get cfg.annotationMaxPorts).getD ""
  if value = "" then .ok none
  else match int value with
    | none =>
      .error ⟨"Invalid " ++ cfg.annotationMaxPorts ++ " value " ++ reprText value ++
        "; expected integer"⟩
    | some maxPorts =>
      if maxPorts < 1 then
        .error ⟨"Invalid " ++ cfg.annotationMaxPorts ++ " value " ++ str maxPorts ++
          "; expected >= 1"⟩
      else .ok (some maxPorts)

def isGkeLoadBalancerService : Bool :=
  gkeLoadBalancerClassPrefix.toList.isPrefixOf (mux.loadBalancerClass.getD "").toList ||
    gkeProviderAnnotations.any fun key => mux.annotations.contains key

def effectiveMuxMaxPorts : Except ValueError (Option Int) :=
  (requestedMaxPorts cfg mux).map fun maxPorts =>
    if !isGkeLoadBalancerService mux then maxPorts
    else match maxPorts with
      | none => some gkeServiceLoadbalancerMaxPorts
      | some maxPorts =>
        if maxPorts > gkeServiceLoadbalancerMaxPorts then some gkeServiceLoadbalancerMaxPorts
        else some maxPorts

def gkeMaxPortsWarning : Except ValueError (Option String) :=
  if !isGkeLoadBalancerService mux then .ok none
  else
    (requestedMaxPorts cfg mux).map fun configured =>
      match configured with
      | none =>
        some ("Detected a GKE LoadBalancer mux without " ++ cfg.annotationMaxPorts ++
          "; applying the GKE Service LoadBalancer limit of " ++
          str gkeServiceLoadbalancerMaxPorts ++ " ports")
      | some configured =>
        if configured > gkeServiceLoadbalancerMaxPorts then
          some ("Detected a GKE LoadBalancer mux with " ++ cfg.annotationMaxPorts ++ "=" ++
            str configured ++ "; using the GKE Service LoadBalancer limit of " ++
            str gkeServiceLoadbalancerMaxPorts ++ " ports")
        else none

/-- The limit that a pass works with, and the events about it. -/
def muxPortLimit : Option Int × List Event :=
  match gkeMaxPortsWarning cfg mux with
  | .error e => (some 0, [⟨"InvalidMaxPorts", e.message⟩])
  | .ok warning =>
    match effectiveMuxMaxPorts cfg mux with
    | .error e => (some 0, [⟨"InvalidMaxPorts", e.message⟩])
    | .ok maxPorts =>
      (maxPorts, warning.toList.map fun message => ⟨"GkePortLimitApplied", message⟩)

def channelDeclaredPortCount (channel : Channel) : ℕ := channel.ports.length

def wouldExceedMuxPortLimit (currentPorts : Finset MuxPort) (channel : Channel)
    (maxPorts : Option Int) : Bool :=
  match maxPorts with
  | none => false
  | some maxPorts => decide ((currentPorts.card + channelDeclaredPortCount channel : Int) > maxPorts)

end SvcLbMux
