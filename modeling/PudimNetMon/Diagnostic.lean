import Mathlib.Data.String.Basic

/-!
# The messages of the diagnostic service (`diagnostic.proto`)

What the collector and an agent's diagnostic service send each other. A map field is its list of entries; the numbers
are those of the wire, `int32` and `int64`.
-/

namespace PudimNetMon

structure DiagnosticResponse where
  success : Bool := false
  result : String := ""
  timestampUnixMs : Int := 0
  error : String := ""

/-- A new probe configuration; a flag that is absent is set to its default. -/
structure AgentConfigRequest where
  agentId : String := ""
  dnsTargets : List String := []
  tcpTargets : List String := []
  tlsTargets : List String := []
  httpTargets : List String := []
  pingTargets : List String := []
  pingCount : Int := 0
  pingGapMs : Int := 0
  tlsCertCheck : Option Bool := none
  tcpRetransmitCheck : Option Bool := none
  tcpHandshakeCapture : Option Bool := none
  httpProtocols : List String := []
  deriving DecidableEq

structure AgentConfigResponse where
  success : Bool := false
  error : String := ""
  applied : String := ""

structure RunCommandRequest where
  agentId : String := ""
  commandId : String := ""
  params : List (String × String) := []
  deriving DecidableEq

structure CommandResponse where
  success : Bool := false
  commandId : String := ""
  error : String := ""
  timestampUnixMs : Int := 0
  summary : String := ""
  fields : List (String × String) := []
  issues : List String := []
  detail : String := ""

/-- One entry of the agent's command catalog. -/
structure CommandInfo where
  commandId : String := ""
  description : String := ""
  paramNames : List String := []

structure ListCommandsResponse where
  success : Bool := false
  error : String := ""
  commands : List CommandInfo := []

end PudimNetMon
