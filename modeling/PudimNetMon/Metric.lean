import PudimNetMon.Lib.Double

/-!
# Metrics and batches (`metrics.proto`)

The messages an agent sends. The `oneof value` of a metric is one optional value, `status_code` is optional of its
own, and an enum value the schema does not name is kept as its number (`CheckType.unrecognized`).
-/

namespace PudimNetMon

inductive CheckType
  | unspecified | dnsResolution | tcpConnect | tlsHandshake | httpRequest | icmpPing | jitter | tlsCertificate
  | tcpRetransmit | dnsRecord | tcpHandshake | ntpOffset
  /-- A number that names no check type. -/
  | unrecognized (n : Int)
  deriving DecidableEq, Repr

/-- The `oneof value` of a metric. -/
inductive MetricValue
  | latencyMs (v : Double)
  | packetLossPct (v : Double)
  | jitterMs (v : Double)
  | rttMs (v : Double)
  deriving DecidableEq, Repr

/-- One network measurement. -/
structure Metric where
  checkType : CheckType := .unspecified
  target : String := ""
  success : Bool := false
  detail : String := ""
  value : Option MetricValue := none
  statusCode : Option Int := none
  attributes : List (String × String) := []
  seq : Nat := 0
  monotonicUs : Int := 0
  deriving DecidableEq, Repr

namespace Metric

def latencyMs (m : Metric) : Option Double :=
  match m.value with
  | some (.latencyMs v) => some v
  | _ => none

def packetLossPct (m : Metric) : Option Double :=
  match m.value with
  | some (.packetLossPct v) => some v
  | _ => none

def jitterMs (m : Metric) : Option Double :=
  match m.value with
  | some (.jitterMs v) => some v
  | _ => none

def rttMs (m : Metric) : Option Double :=
  match m.value with
  | some (.rttMs v) => some v
  | _ => none

end Metric

/-- The metrics of one agent in one collection cycle. -/
structure MetricsBatch where
  agentId : String := ""
  timestampUnixMs : Int := 0
  metrics : List Metric := []
  deriving DecidableEq, Repr

end PudimNetMon
