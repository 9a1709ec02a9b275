import PudimNetMon.Agent.LoadConfig
import PudimNetMon.Lib.Separated
import PudimNetMon.Metric

/-!
# Targets of TCP probes (`probes.cpp`, `pcap_probe.cpp`)

The connect probe and the handshake probe take the same list of targets, and each takes a target apart for itself. The
network is an argument: what a connection to a host and a port takes, or why it fails.

- `hostPort_agrees_iff`: the targets that both take apart alike.
-/

namespace PudimNetMon.Agent

open Config (stoi)

/-- A connection's latency, or the detail of its failure. -/
abbrev Connect := String → Int32 → Except String Double

/-! ## The connect probe -/

def splitHostPort (hostPort : String) : Option (String × Int32) :=
  match cutLast ':' hostPort.toList with
  | none => some (hostPort, 80)
  | some (host, port) =>
    match stoi (String.ofList port) with
    | none => none
    | some n => if host.isEmpty then none else some (String.ofList host, n)

def failureMetric (checkType : CheckType) (target detail : String) : Metric :=
  { checkType, target, success := false, detail }

/-- `RunTcpProbe`; its failures have no monotonic time. -/
def runTcpProbe (connect : Connect) (us : Int) (hostPort : String) : Metric :=
  match splitHostPort hostPort with
  | none => failureMetric .tcpConnect hostPort "invalid host:port"
  | some (host, port) =>
    match connect host port with
    | .error err => failureMetric .tcpConnect hostPort err
    | .ok latency =>
      { checkType := .tcpConnect, target := hostPort, monotonicUs := us, value := some (.latencyMs latency),
        success := true }

/-! ## The handshake probe -/

/-- The host and the port of `ProbeTcpHandshake`, or the detail of its failure. -/
def handshakeHostPort (hostPort : String) : Except String (String × Int32) :=
  match cutLast ':' hostPort.toList with
  | none => .error "invalid host:port"
  | some (host, port) =>
    match stoi (String.ofList port) with
    | none => .error "invalid port"
    | some n => .ok (String.ofList host, n)

/-- `ProbeTcpHandshake`, where it times the handshake on a socket. -/
def probeTcpHandshake (connect : Connect) (us : Int) (hostPort : String) : Metric :=
  let metric : Metric := { checkType := .tcpHandshake, target := hostPort, monotonicUs := us }
  match handshakeHostPort hostPort with
  | .error detail => { metric with success := false, detail }
  | .ok (host, port) =>
    match connect host port with
    | .error error => { metric with success := false, detail := error }
    | .ok latency =>
      { metric with value := some (.latencyMs latency), attributes := [("method", "socket")], success := true }

/-! ## Agreement -/

/-- Both probes connect to the same host and port, or both reject the target. -/
def HostPortAgrees (target : String) : Prop := splitHostPort target = (handshakeHostPort target).toOption

instance (target : String) : Decidable (HostPortAgrees target) := inferInstanceAs (Decidable (_ = _))

/-- Without a colon there is a default port for one of the probes only. -/
theorem not_agrees_of_no_colon {target : String} (h : cutLast ':' target.toList = none) : ¬HostPortAgrees target := by
  unfold HostPortAgrees splitHostPort handshakeHostPort
  rw [h]
  nofun

/-- With a colon they differ in an empty host. -/
theorem agrees_iff_of_colon {target : String} {host port : List Char}
    (h : cutLast ':' target.toList = some (host, port)) :
    HostPortAgrees target ↔ (host = [] → stoi (String.ofList port) = none) := by
  unfold HostPortAgrees splitHostPort handshakeHostPort
  rw [h]
  dsimp only
  cases stoi (String.ofList port) with
  | none => exact iff_of_true rfl fun _ => rfl
  | some n =>
    cases host with
    | nil => exact iff_of_false nofun fun hnone => nomatch hnone rfl
    | cons c cs => exact iff_of_true rfl nofun

/-- **Targets.** The probes agree on a target exactly when it has a colon, and its last colon is not in front of
everything else with a number behind it. -/
theorem hostPort_agrees_iff (target : String) :
    HostPortAgrees target ↔
      ':' ∈ target.toList ∧ ∀ port, cutLast ':' target.toList = some ([], port) → stoi (String.ofList port) = none := by
  cases h : cutLast ':' target.toList with
  | none =>
    have hcolon := cutLast_eq_none_iff.1 h
    exact iff_of_false (not_agrees_of_no_colon h) fun hboth => hcolon hboth.1
  | some parts =>
    obtain ⟨host, port⟩ := parts
    have hcolon : ':' ∈ target.toList := by
      by_contra hnot
      rw [cutLast_eq_none_iff.2 hnot] at h
      cases h
    rw [agrees_iff_of_colon h, and_iff_right hcolon]
    constructor
    · rintro himp port' heq
      cases heq
      exact himp rfl
    · rintro himp rfl
      exact himp port rfl

/-- `example.com` has the port 80 for one probe and is invalid for the other; `:443` the other way round. -/
theorem bare_host_disagrees :
    splitHostPort "example.com" = some ("example.com", 80) ∧
      handshakeHostPort "example.com" = .error "invalid host:port" ∧ ¬HostPortAgrees "example.com" ∧
      ¬HostPortAgrees ":443" := by
  refine ⟨by decide, rfl, by decide, by decide⟩

end PudimNetMon.Agent
