import PudimNetMon.Metric

/-!
# Alert rules (`alert_rule.h`, `alert_rule.cpp`)

A rule, its filters, the names of the check types and the field a threshold rule reads from a metric.
-/

namespace PudimNetMon.Alerting

/-- Fires when a metric violates a threshold, or when a probe fails if `onFailure` is set. -/
structure AlertRule where
  id : String := ""
  name : String := ""
  agentId : String := ""
  checkType : String := ""
  target : String := ""
  metricField : String := ""
  greaterThan : Bool := true
  threshold : Double := .zero
  repeatIntervalSec : Int := 300
  severity : String := "warning"
  onFailure : Bool := false
  deriving DecidableEq, Repr

namespace AlertRule

def matchesAgent (r : AlertRule) (agent : String) : Bool := r.agentId.isEmpty || r.agentId == agent

def matchesTarget (r : AlertRule) (t : String) : Bool := r.target.isEmpty || r.target == t

end AlertRule

/-- The config string of a check type; the types added later have none here. -/
def checkTypeToString : CheckType → String
  | .dnsResolution => "dns_resolution"
  | .tcpConnect => "tcp_connect"
  | .tlsHandshake => "tls_handshake"
  | .httpRequest => "http_request"
  | .icmpPing => "icmp_ping"
  | .jitter => "jitter"
  | _ => "unspecified"

/-- The check type a config string names. -/
def checkTypeFromString (s : String) : Option CheckType :=
  if s = "dns_resolution" then some .dnsResolution
  else if s = "tcp_connect" then some .tcpConnect
  else if s = "tls_handshake" then some .tlsHandshake
  else if s = "http_request" then some .httpRequest
  else if s = "icmp_ping" then some .icmpPing
  else if s = "jitter" then some .jitter
  else if s = "tls_certificate" then some .tlsCertificate
  else if s = "tcp_retransmit" then some .tcpRetransmit
  else if s = "dns_record" then some .dnsRecord
  else if s = "tcp_handshake" then some .tcpHandshake
  else if s = "ntp_offset" then some .ntpOffset
  else none

/-- The numeric value of `field`, when the metric carries it. -/
def getMetricValue (m : Metric) (field : String) : Option Double :=
  if field = "latency_ms" ∧ m.latencyMs.isSome then m.latencyMs
  else if field = "packet_loss_pct" ∧ m.packetLossPct.isSome then m.packetLossPct
  else if field = "jitter_ms" ∧ m.jitterMs.isSome then m.jitterMs
  else if field = "rtt_ms" ∧ m.rttMs.isSome then m.rttMs
  else if field = "status_code" ∧ m.statusCode.isSome then m.statusCode.map Double.ofInt
  else none

end PudimNetMon.Alerting
