import Mathlib.Algebra.Ring.Int.Defs
import Mathlib.Algebra.Ring.Nat
import PudimNetMon.Diagnostic

/-!
# `ProbeConfig` and its service (`probe_config.h`, `diagnostic_service.cpp`)

What the agent measures. `GetConfig` prints it in one line, `Reconfigure` builds a new one from a request.

- `reconfigured_iff`: the configurations of which a request changes nothing that it cannot express.
-/

namespace PudimNetMon.Agent

structure ProbeConfig where
  dnsTargets : List String := []
  tcpTargets : List String := []
  tlsTargets : List String := []
  httpTargets : List String := []
  pingTargets : List String := []
  pingCount : Int32 := 4
  pingGapMs : Int32 := 200
  tlsCertCheck : Bool := true
  tcpRetransmitCheck : Bool := true
  tcpHandshakeCapture : Bool := true
  httpProtocols : List String := []
  /-- The expected records of a host. -/
  dnsExpected : List (String × List String) := []
  ntpCheck : Bool := true
  deriving DecidableEq

def joinList (items : List String) : String := ",".intercalate items

def onOff (b : Bool) : String := if b then "on" else "off"

def summaryOf (c : ProbeConfig) : String :=
  "dns=" ++ joinList c.dnsTargets ++
  " tcp=" ++ joinList c.tcpTargets ++
  " tls=" ++ joinList c.tlsTargets ++
  " http=" ++ joinList c.httpTargets ++
  " ping=" ++ joinList c.pingTargets ++
  " ping_count=" ++ toString c.pingCount.toInt ++
  " ping_gap_ms=" ++ toString c.pingGapMs.toInt ++
  " tls_cert=" ++ onOff c.tlsCertCheck ++
  " tcp_retransmit=" ++ onOff c.tcpRetransmitCheck ++
  " tcp_handshake=" ++ onOff c.tcpHandshakeCapture ++
  " http_protocols=" ++ joinList c.httpProtocols

/-- A count of the request if it is positive. -/
def positiveOr (n : Int) (default : Int32) : Int32 := if n > 0 then Int32.ofInt n else default

/-- The configuration that `Reconfigure` stores. -/
def configOf (request : AgentConfigRequest) : ProbeConfig :=
  let next : ProbeConfig := {}
  { next with
    dnsTargets := request.dnsTargets
    tcpTargets := request.tcpTargets
    tlsTargets := request.tlsTargets
    httpTargets := request.httpTargets
    pingTargets := request.pingTargets
    pingCount := positiveOr request.pingCount next.pingCount
    pingGapMs := positiveOr request.pingGapMs next.pingGapMs
    tlsCertCheck := request.tlsCertCheck.getD next.tlsCertCheck
    tcpRetransmitCheck := request.tcpRetransmitCheck.getD next.tcpRetransmitCheck
    tcpHandshakeCapture := request.tcpHandshakeCapture.getD next.tcpHandshakeCapture
    httpProtocols := request.httpProtocols }

/-- `Reconfigure`: the stored configuration and the answer. -/
def reconfigure (request : AgentConfigRequest) : ProbeConfig × AgentConfigResponse :=
  (configOf request, { success := true, applied := summaryOf (configOf request) })

def getConfig (store : ProbeConfig) : AgentConfigResponse := { success := true, applied := summaryOf store }

/-- A count that is positive. -/
def normalCount (n default : Int32) : Int32 := if 0 < n.toInt then n else default

/-- A positive count is stored as it is, zero and a negative one as the default. -/
theorem positiveOr_toInt (n default : Int32) : positiveOr n.toInt default = normalCount n default := by
  unfold positiveOr normalCount
  rw [Int32.ofInt_toInt]

/-- The stored count is positive. -/
theorem positiveOr_pos {n : Int} (h : n < 2 ^ 31) {default : Int32} (hdefault : 0 < default.toInt) :
    0 < (positiveOr n default).toInt := by
  unfold positiveOr
  split
  · rename_i hpos
    rw [Int32.toInt_ofInt_of_le (by omega) (by omega)]
    exact hpos
  · exact hdefault

/-! ## What a request changes -/

/-- The fields that a request can express follow it, the others are those of the configuration before. -/
structure Reconfigured (current : ProbeConfig) (request : AgentConfigRequest) (next : ProbeConfig) : Prop where
  dnsTargets : next.dnsTargets = request.dnsTargets
  tcpTargets : next.tcpTargets = request.tcpTargets
  tlsTargets : next.tlsTargets = request.tlsTargets
  httpTargets : next.httpTargets = request.httpTargets
  pingTargets : next.pingTargets = request.pingTargets
  httpProtocols : next.httpProtocols = request.httpProtocols
  pingCount : next.pingCount = if 0 < request.pingCount then Int32.ofInt request.pingCount else 4
  pingGapMs : next.pingGapMs = if 0 < request.pingGapMs then Int32.ofInt request.pingGapMs else 200
  tlsCertCheck : next.tlsCertCheck = request.tlsCertCheck.getD true
  tcpRetransmitCheck : next.tcpRetransmitCheck = request.tcpRetransmitCheck.getD true
  tcpHandshakeCapture : next.tcpHandshakeCapture = request.tcpHandshakeCapture.getD true
  dnsExpected : next.dnsExpected = current.dnsExpected
  ntpCheck : next.ntpCheck = current.ntpCheck

/-- **Reconfiguration.** What a request cannot express is kept exactly when it was at its default: no expected records,
and the NTP check on. -/
theorem reconfigured_iff (current : ProbeConfig) (request : AgentConfigRequest) :
    Reconfigured current request (reconfigure request).1 ↔ current.dnsExpected = [] ∧ current.ntpCheck = true := by
  constructor
  · intro h
    exact ⟨h.dnsExpected.symm, h.ntpCheck.symm⟩
  · rintro ⟨hexpected, hntp⟩
    exact ⟨rfl, rfl, rfl, rfl, rfl, rfl, rfl, rfl, rfl, rfl, rfl, hexpected.symm, hntp.symm⟩

/-- The expected records of a host are gone behind a request with another ping target. -/
theorem expected_records_lost :
    let current : ProbeConfig := { dnsTargets := ["example.com"], dnsExpected := [("example.com", ["A:192.0.2.1"])] }
    let request : AgentConfigRequest := { dnsTargets := ["example.com"], pingTargets := ["192.0.2.7"] }
    (reconfigure request).1.dnsExpected = [] ∧ ¬Reconfigured current request (reconfigure request).1 := by
  intro current request
  refine ⟨rfl, fun h => ?_⟩
  exact absurd h.dnsExpected (by decide)

end PudimNetMon.Agent
