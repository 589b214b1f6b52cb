import Mathlib.Data.Nat.Digits.Defs
import SvcLbMux.Library.Text

namespace SvcLbMux

/-- The environment of the controller (`config.py`) and the digest it imports from `hashlib`. -/
structure Config where
  apiPrefix : String
  defaultMuxNamespace : String
  sha256 : String → Fin (2 ^ 256)

namespace Config

variable (cfg : Config)

def annotationKey (name : String) : String := cfg.apiPrefix ++ "/" ++ name

theorem annotationKey_injective : Function.Injective cfg.annotationKey := by
  intro name name' h
  have hl := congrArg String.toList h
  simp only [annotationKey, String.toList_append] at hl
  exact String.toList_inj.mp (List.append_cancel_left hl)

def annotationPorts : String := cfg.annotationKey "ports"
def annotationExternalPorts : String := cfg.annotationKey "external-ports"
def annotationPortRange : String := cfg.annotationKey "port-range"
def annotationMaxPorts : String := cfg.annotationKey "max-ports"
def annotationAllocationConfigmap : String := cfg.annotationKey "allocation-configmap"
def annotationExternalDnsHostname : String := cfg.annotationKey "external-dns-hostname"
def annotationExternalDnsAggregated : String := cfg.annotationKey "aggregated-external-dns"
def annotationChannels : String := cfg.annotationKey "channels"
def annotationTopology : String := cfg.annotationKey "topology"
def annotationSummary : String := cfg.annotationKey "summary"
def annotationManaged : String := cfg.annotationKey "managed"
def annotationMux : String := cfg.annotationKey "mux"

/-- `sha256(text.encode()).hexdigest()`. -/
def hexdigest (text : String) : List Char :=
  (List.range 64).map fun i => Nat.digitChar ((cfg.sha256 text).val / 16 ^ (63 - i) % 16)

/-- `hexdigest()[:7]`. -/
def shortDigest (text : String) : String := String.ofList ((cfg.hexdigest text).take 7)

theorem length_shortDigest (text : String) : (cfg.shortDigest text).toList.length = 7 := by
  simp [shortDigest, hexdigest]

end Config

def gkeServiceLoadbalancerMaxPorts : Int := 100

def gkeLoadBalancerClassPrefix : String := "networking.gke.io/"

def gkeProviderAnnotations : List String :=
  ["cloud.google.com/l4-rbs", "networking.gke.io/load-balancer-type",
    "networking.gke.io/load-balancer-ip-addresses"]

def externalDnsHostnameAnnotation : String := "external-dns.alpha.kubernetes.io/hostname"

def externalDnsCloudflareProxiedAnnotation : String :=
  "external-dns.alpha.kubernetes.io/cloudflare-proxied"

def aggregatedExternalDnsAnnotations : List String :=
  externalDnsHostnameAnnotation :: externalDnsCloudflareProxiedAnnotation :: []

/-- A Python `ValueError` with its text. -/
structure ValueError where
  message : String
deriving DecidableEq

inductive PyError where
  | valueError (error : ValueError)
  | keyError (key : String)
deriving DecidableEq

end SvcLbMux
