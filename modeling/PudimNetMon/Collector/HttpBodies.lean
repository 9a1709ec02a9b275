import PudimNetMon.Diagnostic
import PudimNetMon.Lib.JsonText

/-!
# The JSON bodies of the HTTP API (`agent_registry.cpp`, `http_server.cpp`)

Bodies put together around `logger::escape`, which has short escapes for the quotation mark, the backslash, `\n` and
`\t`. `\r` and the other control characters stay as they are, and no JSON string has one of them.
-/

namespace PudimNetMon.Collector

open JsonText

/-! ## The bodies -/

/-- One character of `logger::escape`. -/
def escapeChar : Char → List Char
  | '"' => ['\\', '"']
  | '\\' => ['\\', '\\']
  | '\n' => ['\\', 'n']
  | '\t' => ['\\', 't']
  | c => [c]

/-- `logger::escape` -/
def escape (s : String) : String := String.ofList (s.toList.flatMap escapeChar)

def boolText (b : Bool) : String := if b then "true" else "false"

/-- One agent known to the collector via its heartbeats. -/
structure AgentEntry where
  agentId : String
  lastSeenUnixMs : Int
  intervalMs : Int
  version : String
  firstSeenUnixMs : Int
  diagnosticEndpoint : String

def AgentEntry.json (now : Int) (entry : AgentEntry) : String :=
  "\x7b" ++
  "\"agent_id\":\"" ++ escape entry.agentId ++ "\"," ++
  "\"last_seen_unix_ms\":" ++ toString entry.lastSeenUnixMs ++ "," ++
  "\"interval_ms\":" ++ toString entry.intervalMs ++ "," ++
  "\"version\":\"" ++ escape entry.version ++ "\"," ++
  "\"diagnostic_endpoint\":\"" ++ escape entry.diagnosticEndpoint ++ "\"," ++
  "\"first_seen_unix_ms\":" ++ toString entry.firstSeenUnixMs ++ "," ++
  "\"alive\":" ++ boolText (now - entry.lastSeenUnixMs < 30000) ++
  "\x7d"

/-- `DumpAgents`, for the agents in the order of the map. -/
def dumpAgents (now : Int) (agents : List AgentEntry) : String :=
  "\x7b\"agents\":[" ++ ",".intercalate (agents.map (AgentEntry.json now)) ++ "]\x7d"

def diagnosticBody (r : DiagnosticResponse) : String :=
  "\x7b\"success\":" ++ boolText r.success ++ ",\"timestamp_unix_ms\":" ++ toString r.timestampUnixMs ++
  ",\"result\":\"" ++ escape r.result ++ "\"\x7d"

/-- The answer of both config handlers. -/
def configBody (r : AgentConfigResponse) : String :=
  "\x7b\"success\":" ++ boolText r.success ++ ",\"applied\":\"" ++ escape r.applied ++ "\",\"error\":\"" ++
  escape r.error ++ "\"\x7d"

def quotedList (l : List String) : String := ",".intercalate (l.map fun s => "\"" ++ escape s ++ "\"")

def commandInfoJson (c : CommandInfo) : String :=
  "\x7b\"command_id\":\"" ++ escape c.commandId ++ "\",\"description\":\"" ++ escape c.description ++
  "\",\"param_names\":[" ++ quotedList c.paramNames ++ "]\x7d"

def commandsBody (r : ListCommandsResponse) : String :=
  "\x7b\"success\":" ++ boolText r.success ++ ",\"commands\":[" ++ ",".intercalate (r.commands.map commandInfoJson) ++
  "]\x7d"

def commandBody (r : CommandResponse) : String :=
  "\x7b\"success\":" ++ boolText r.success ++ ",\"command_id\":\"" ++ escape r.commandId ++ "\",\"error\":\"" ++
  escape r.error ++ "\",\"timestamp_unix_ms\":" ++ toString r.timestampUnixMs ++ ",\"summary\":\"" ++
  escape r.summary ++ "\",\"fields\":\x7b" ++
  ",".intercalate (r.fields.map fun kv => "\"" ++ escape kv.1 ++ "\":\"" ++ escape kv.2 ++ "\"") ++
  "\x7d,\"issues\":[" ++ quotedList r.issues ++ "],\"detail\":\"" ++ escape r.detail ++ "\"\x7d"

def noEndpointHint : String :=
  "' has no advertised diagnostic endpoint: the agent must be online and either report diagnostic_endpoint in its " ++
  "heartbeat or be reachable at its diagnostic port (default 50052)"

/-- The body of `PrepareAgentCall` for an agent without an endpoint. -/
def noEndpointBody (agentId : String) : String :=
  "\x7b\"error\":\"agent '" ++ escape agentId ++ noEndpointHint ++ "\"\x7d"

inductive RpcErrorCode
  | unimplemented | deadlineExceeded | unavailable
  /-- Any other code of a failed call. -/
  | other
  deriving DecidableEq

/-- The status of a failed call. -/
structure RpcStatus where
  errorCode : RpcErrorCode
  errorMessage : String

/-- The message of `SendAgentRpcError`. -/
def rpcErrorMessage (status : RpcStatus) (endpoint : String) : String :=
  let msg :=
    if status.errorMessage.isEmpty then
      match status.errorCode with
      | .unimplemented =>
        "the gRPC server answered but does not implement the agent DiagnosticService (wrong endpoint, a collector " ++
        "port, or an agent build without pre-set commands)"
      | .deadlineExceeded => "the agent did not answer in time"
      | .unavailable => "the agent could not be reached (offline, firewall or a wrong advertised address)"
      | .other => "agent RPC failed"
    else status.errorMessage
  if endpoint.isEmpty then msg else msg ++ " (diagnostic endpoint " ++ endpoint ++ ")"

def rpcErrorBody (status : RpcStatus) (endpoint : String) : String :=
  "\x7b\"error\":\"" ++ escape (rpcErrorMessage status endpoint) ++ "\"\x7d"

/-- The body of a download of what is not staged, an agent binary or an installer. -/
def notStagedBody (what platform : String) : String :=
  "\x7b\"error\":\"no " ++ what ++ " staged for platform '" ++ escape platform ++ "'\"\x7d"

/-- A body with what it is made of. -/
inductive Body
  | agents (now : Int) (entries : List AgentEntry)
  | command (r : CommandResponse)
  | diagnostic (r : DiagnosticResponse)
  | commands (r : ListCommandsResponse)
  | config (r : AgentConfigResponse)
  | noEndpoint (agentId : String)
  | rpcError (status : RpcStatus) (endpoint : String)
  | noAgentBinary (platform : String)
  | noInstaller (platform : String)

def Body.text : Body → String
  | .agents now entries => dumpAgents now entries
  | .command r => commandBody r
  | .diagnostic r => diagnosticBody r
  | .commands r => commandsBody r
  | .config r => configBody r
  | .noEndpoint agentId => noEndpointBody agentId
  | .rpcError status endpoint => rpcErrorBody status endpoint
  | .noAgentBinary platform => notStagedBody "agent binary" platform
  | .noInstaller platform => notStagedBody "installer" platform

/-! ## What the bodies should say -/

def numberValue (n : Int) : Value := .number (toString n).toList

def AgentEntry.value (now : Int) (entry : AgentEntry) : Value :=
  .object [("agent_id", .string entry.agentId), ("last_seen_unix_ms", numberValue entry.lastSeenUnixMs),
    ("interval_ms", numberValue entry.intervalMs), ("version", .string entry.version),
    ("diagnostic_endpoint", .string entry.diagnosticEndpoint),
    ("first_seen_unix_ms", numberValue entry.firstSeenUnixMs),
    ("alive", .bool (now - entry.lastSeenUnixMs < 30000))]

def commandInfoValue (c : CommandInfo) : Value :=
  .object [("command_id", .string c.commandId), ("description", .string c.description),
    ("param_names", .array (c.paramNames.map .string))]

def errorValue (msg : String) : Value := .object [("error", .string msg)]

def Body.value : Body → Value
  | .agents now entries => .object [("agents", .array (entries.map (AgentEntry.value now)))]
  | .command r =>
    .object [("success", .bool r.success), ("command_id", .string r.commandId), ("error", .string r.error),
      ("timestamp_unix_ms", numberValue r.timestampUnixMs), ("summary", .string r.summary),
      ("fields", .object (r.fields.map fun kv => (kv.1, .string kv.2))), ("issues", .array (r.issues.map .string)),
      ("detail", .string r.detail)]
  | .diagnostic r =>
    .object [("success", .bool r.success), ("timestamp_unix_ms", numberValue r.timestampUnixMs),
      ("result", .string r.result)]
  | .commands r => .object [("success", .bool r.success), ("commands", .array (r.commands.map commandInfoValue))]
  | .config r => .object [("success", .bool r.success), ("applied", .string r.applied), ("error", .string r.error)]
  | .noEndpoint agentId => errorValue ("agent '" ++ agentId ++ noEndpointHint)
  | .rpcError status endpoint => errorValue (rpcErrorMessage status endpoint)
  | .noAgentBinary platform => errorValue ("no agent binary staged for platform '" ++ platform ++ "'")
  | .noInstaller platform => errorValue ("no installer staged for platform '" ++ platform ++ "'")

/-- The strings of a body that come from outside. -/
def Body.strings : Body → List String
  | .agents _ entries => entries.flatMap fun e => [e.agentId, e.version, e.diagnosticEndpoint]
  | .command r =>
    [r.commandId, r.error, r.summary] ++ (r.fields.flatMap fun kv => [kv.1, kv.2]) ++ r.issues ++ [r.detail]
  | .diagnostic r => [r.result]
  | .commands r => r.commands.flatMap fun c => [c.commandId, c.description] ++ c.paramNames
  | .config r => [r.applied, r.error]
  | .noEndpoint agentId => [agentId]
  | .rpcError status endpoint => [status.errorMessage, endpoint]
  | .noAgentBinary platform => [platform]
  | .noInstaller platform => [platform]

/-- A control character that `logger::escape` leaves as it is. -/
def RawControl (c : Char) : Prop := c.toNat < 0x20 ∧ c ≠ '\n' ∧ c ≠ '\t'

def Unescaped (s : String) : Prop := ∃ c ∈ s.toList, RawControl c

/-! ## The bodies part by part -/

theorem escapeChar_cases (c : Char) : (escapeChar c = [c] ∧ c ≠ '"' ∧ c ≠ '\\') ∨
    ∃ d, escapeChar c = ['\\', d] ∧ d ≠ 'u' ∧ shortEscape d = some c := by
  unfold escapeChar
  split
  · exact .inr ⟨'"', rfl, by decide, rfl⟩
  · exact .inr ⟨'\\', rfl, by decide, rfl⟩
  · exact .inr ⟨'n', rfl, by decide, rfl⟩
  · exact .inr ⟨'t', rfl, by decide, rfl⟩
  · exact .inl ⟨rfl, by assumption, by assumption⟩

theorem rawControl_iff (c : Char) : RawControl c ↔ c.toNat < 0x20 ∧ escapeChar c = [c] := by
  unfold RawControl escapeChar
  split <;> simp_all

/-- `logger::escape` writes all characters so that they are read back, but for raw control characters. -/
theorem escapes_logger : Escapes escapeChar RawControl := by
  have h := escapes_short escapeChar_cases
  exact ⟨fun c hc => h.reads c (mt (rawControl_iff c).2 hc), fun c hc => h.refuses c ((rawControl_iff c).1 hc)⟩

/-- A string in a body. -/
theorem reads_escaped (s : String) :
    Reads ('"' :: ((escape s).toList ++ ['"'])) (Value.string s).tokens (¬Unescaped s) := by
  have hstring := escapes_logger.string s
  rw [escape, String.toList_ofList]
  exact hstring.congr (by simp [Unescaped])

theorem reads_quotedList (l : List String) :
    Reads ('[' :: ((quotedList l).toList ++ [']'])) (Value.array (l.map .string)).tokens (∀ s ∈ l, ¬Unescaped s) := by
  have hlist := Reads.array .string l fun s _ => reads_escaped s
  simpa [quotedList, String.toList_intercalate, Function.comp_def] using hlist

theorem reads_agentEntry (now : Int) (e : AgentEntry) : Reads (e.json now).toList (e.value now).tokens
    (¬Unescaped e.agentId ∧ ¬Unescaped e.version ∧ ¬Unescaped e.diagnosticEndpoint) := by
  have hentry := Reads.members [.of "agent_id" rfl (reads_escaped e.agentId),
    .of "last_seen_unix_ms" rfl (Reads.int e.lastSeenUnixMs), .of "interval_ms" rfl (Reads.int e.intervalMs),
    .of "version" rfl (reads_escaped e.version), .of "diagnostic_endpoint" rfl (reads_escaped e.diagnosticEndpoint),
    .of "first_seen_unix_ms" rfl (Reads.int e.firstSeenUnixMs),
    .of "alive" rfl (Reads.bool (now - e.lastSeenUnixMs < 30000))]
  unfold AgentEntry.json AgentEntry.value boolText
  simpa [MemberPart.of, numberValue, List.intercalate_cons_cons] using hentry

theorem reads_dumpAgents (now : Int) (l : List AgentEntry) :
    Reads (dumpAgents now l).toList (Value.object [("agents", .array (l.map (AgentEntry.value now)))]).tokens
      (∀ e ∈ l, ¬Unescaped e.agentId ∧ ¬Unescaped e.version ∧ ¬Unescaped e.diagnosticEndpoint) := by
  have hbody := Reads.members
    [.of "agents" rfl (Reads.array (AgentEntry.value now) l fun e _ => reads_agentEntry now e)]
  unfold dumpAgents
  simpa [MemberPart.of, String.toList_intercalate, Function.comp_def] using hbody

theorem reads_diagnostic (r : DiagnosticResponse) :
    Reads (diagnosticBody r).toList (Body.diagnostic r).value.tokens (¬Unescaped r.result) := by
  have hbody := Reads.members [.of "success" rfl (Reads.bool r.success),
    .of "timestamp_unix_ms" rfl (Reads.int r.timestampUnixMs), .of "result" rfl (reads_escaped r.result)]
  unfold diagnosticBody boolText Body.value
  simpa [MemberPart.of, numberValue, List.intercalate_cons_cons] using hbody

theorem reads_config (r : AgentConfigResponse) :
    Reads (configBody r).toList (Body.config r).value.tokens (¬Unescaped r.applied ∧ ¬Unescaped r.error) := by
  have hbody := Reads.members [.of "success" rfl (Reads.bool r.success), .of "applied" rfl (reads_escaped r.applied),
    .of "error" rfl (reads_escaped r.error)]
  unfold configBody boolText Body.value
  simpa [MemberPart.of, List.intercalate_cons_cons] using hbody

theorem reads_commandInfo (c : CommandInfo) : Reads (commandInfoJson c).toList (commandInfoValue c).tokens
    (¬Unescaped c.commandId ∧ ¬Unescaped c.description ∧ ∀ p ∈ c.paramNames, ¬Unescaped p) := by
  have hinfo := Reads.members [.of "command_id" rfl (reads_escaped c.commandId),
    .of "description" rfl (reads_escaped c.description), .of "param_names" rfl (reads_quotedList c.paramNames)]
  unfold commandInfoJson commandInfoValue
  simpa [MemberPart.of, List.intercalate_cons_cons] using hinfo

theorem reads_commands (r : ListCommandsResponse) :
    Reads (commandsBody r).toList (Body.commands r).value.tokens
      (∀ c ∈ r.commands, ¬Unescaped c.commandId ∧ ¬Unescaped c.description ∧ ∀ p ∈ c.paramNames, ¬Unescaped p) := by
  have hbody := Reads.members [.of "success" rfl (Reads.bool r.success),
    .of "commands" rfl (Reads.array commandInfoValue r.commands fun c _ => reads_commandInfo c)]
  unfold commandsBody boolText Body.value
  simpa [MemberPart.of, List.intercalate_cons_cons, String.toList_intercalate, Function.comp_def] using hbody

/-- An entry of a map in a body. -/
theorem reads_entry (key s : String) :
    Reads ('"' :: ((escape key).toList ++ ['"']) ++ ':' :: '"' :: ((escape s).toList ++ ['"']))
      (memberTokens (key, .string s)) (¬Unescaped key ∧ ¬Unescaped s) := by
  have hentry := escapes_logger.member key (reads_escaped s)
  rw [show (escape key).toList = key.toList.flatMap escapeChar by rw [escape, String.toList_ofList]]
  exact hentry.congr (by simp [Unescaped])

theorem reads_command (r : CommandResponse) :
    Reads (commandBody r).toList (Body.command r).value.tokens
      (¬Unescaped r.commandId ∧ ¬Unescaped r.error ∧ ¬Unescaped r.summary ∧
        (∀ kv ∈ r.fields, ¬Unescaped kv.1 ∧ ¬Unescaped kv.2) ∧ (∀ i ∈ r.issues, ¬Unescaped i) ∧
        ¬Unescaped r.detail) := by
  have hfields := Reads.object (fun kv : String × String => (kv.1, Value.string kv.2)) r.fields fun kv _ =>
    reads_entry kv.1 kv.2
  have hbody := Reads.members [.of "success" rfl (Reads.bool r.success),
    .of "command_id" rfl (reads_escaped r.commandId), .of "error" rfl (reads_escaped r.error),
    .of "timestamp_unix_ms" rfl (Reads.int r.timestampUnixMs), .of "summary" rfl (reads_escaped r.summary),
    .of "fields" rfl hfields, .of "issues" rfl (reads_quotedList r.issues), .of "detail" rfl (reads_escaped r.detail)]
  unfold commandBody boolText Body.value
  simpa [MemberPart.of, numberValue, List.intercalate_cons_cons, String.toList_intercalate, Function.comp_def] using
    hbody

/-! ### Errors -/

theorem escape_append (s t : String) : escape (s ++ t) = escape s ++ escape t := by
  simp [escape, String.ofList_append]

theorem unescaped_append {s t : String} : Unescaped (s ++ t) ↔ Unescaped s ∨ Unescaped t := by
  simp [Unescaped, or_and_right, exists_or]

/-- A text of the source inside a message. -/
theorem escape_plain {s : String} (h : s.toList.all isPlain = true) : escape s = s ∧ ¬Unescaped s := by
  have hplain : ∀ c ∈ s.toList, isPlain c = true := List.all_eq_true.1 h
  constructor
  · have hchars : ∀ c ∈ s.toList, escapeChar c = [c] := by
      intro c hc
      have hc' := hplain c hc
      unfold escapeChar
      split <;> first | rfl | exact absurd hc' (by decide)
    rw [escape, List.flatMap_congr hchars, List.flatMap_singleton']
    exact String.ofList_toList
  · rintro ⟨c, hc, hlt, -⟩
    have hc' := hplain c hc
    simp only [isPlain, Bool.and_eq_true, decide_eq_true_eq] at hc'
    omega

theorem reads_error {body msg : String} (hbody : body = "\x7b\"error\":\"" ++ escape msg ++ "\"\x7d") :
    Reads body.toList (errorValue msg).tokens (¬Unescaped msg) := by
  have herror := Reads.members [.of "error" rfl (reads_escaped msg)]
  rw [hbody]
  unfold errorValue
  simpa [MemberPart.of] using herror

/-- A message around a name. -/
theorem reads_message {body : String} (front s back : String) (hfront : front.toList.all isPlain = true)
    (hback : back.toList.all isPlain = true)
    (hbody : body.toList = "\x7b\"error\":\"".toList ++
      (front.toList ++ ((escape s).toList ++ (back.toList ++ "\"\x7d".toList)))) :
    Reads body.toList (errorValue (front ++ s ++ back)).tokens (¬Unescaped s) := by
  have hmessage : body = "\x7b\"error\":\"" ++ escape (front ++ s ++ back) ++ "\"\x7d" := by
    apply String.toList_inj.1
    rw [hbody, escape_append, escape_append, (escape_plain hfront).1, (escape_plain hback).1]
    simp only [String.toList_append, List.append_assoc]
  refine (reads_error hmessage).congr (not_congr ?_)
  simp [unescaped_append, (escape_plain hfront).2, (escape_plain hback).2]

theorem reads_noEndpoint (agentId : String) :
    Reads (noEndpointBody agentId).toList (errorValue ("agent '" ++ agentId ++ noEndpointHint)).tokens
      (¬Unescaped agentId) := by
  have hhint : noEndpointHint.toList.all isPlain = true := by
    unfold noEndpointHint
    rw [String.toList_append, List.all_append, Bool.and_eq_true]
    exact ⟨plain_chars rfl rfl, plain_chars rfl rfl⟩
  apply reads_message "agent '" agentId noEndpointHint rfl hhint
  have hhead : "\x7b\"error\":\"agent '".toList = "\x7b\"error\":\"".toList ++ "agent '".toList := by simp
  unfold noEndpointBody
  simp only [String.toList_append, hhead, List.append_assoc]

theorem reads_notStaged (front what platform : String) (hfront : front.toList.all isPlain = true)
    (hwhat : front = "no " ++ what ++ " staged for platform '") :
    Reads (notStagedBody what platform).toList (errorValue (front ++ platform ++ "'")).tokens
      (¬Unescaped platform) := by
  apply reads_message front platform "'" hfront rfl
  unfold notStagedBody
  simp [hwhat]

theorem unescaped_rpcErrorMessage (status : RpcStatus) (endpoint : String) :
    ¬Unescaped (rpcErrorMessage status endpoint) ↔ ¬Unescaped status.errorMessage ∧ ¬Unescaped endpoint := by
  have hempty : ∀ {s : String}, s.isEmpty = true → ¬Unescaped s := by
    intro s hs
    rw [String.isEmpty_iff.1 hs]
    exact (escape_plain rfl).2
  have hplain : ∀ {s : String}, s.toList.all isPlain = true → ¬Unescaped s := fun h => (escape_plain h).2
  have hmsg : ∀ msg : String, (¬Unescaped msg ↔ ¬Unescaped status.errorMessage) →
      (¬Unescaped (if endpoint.isEmpty then msg else msg ++ " (diagnostic endpoint " ++ endpoint ++ ")") ↔
        ¬Unescaped status.errorMessage ∧ ¬Unescaped endpoint) := by
    intro msg hiff
    split
    · rename_i hendpoint
      simp [hiff, hempty hendpoint]
    · simp [unescaped_append, hiff, not_or, hplain (show " (diagnostic endpoint ".toList.all isPlain = true from rfl),
        hplain (show ")".toList.all isPlain = true from rfl)]
  apply hmsg
  split
  · rename_i hmessage
    refine iff_of_true ?_ (hempty hmessage)
    cases status.errorCode with
    | unimplemented =>
      apply hplain
      rw [String.toList_append, List.all_append, Bool.and_eq_true]
      exact ⟨plain_chars rfl rfl, plain_chars rfl rfl⟩
    | deadlineExceeded => exact hplain (plain_chars rfl rfl)
    | unavailable => exact hplain (plain_chars rfl rfl)
    | other => exact hplain (plain_chars rfl rfl)
  · rfl

/-- **The parts of a body.** -/
theorem reads_body (b : Body) : Reads b.text.toList b.value.tokens (∀ s ∈ b.strings, ¬Unescaped s) := by
  cases b with
  | agents now l =>
    refine (reads_dumpAgents now l).congr ?_
    simp only [Body.strings, List.forall_mem_flatMap, List.forall_mem_cons, List.not_mem_nil, false_implies,
      implies_true, and_true]
  | command r =>
    refine (reads_command r).congr ?_
    simp only [Body.strings, List.forall_mem_flatMap, List.forall_mem_append, List.forall_mem_cons, List.not_mem_nil,
      false_implies, implies_true, and_true, and_assoc]
  | diagnostic r => exact (reads_diagnostic r).congr (by simp [Body.strings])
  | commands r =>
    refine (reads_commands r).congr ?_
    simp only [Body.strings, List.forall_mem_flatMap, List.forall_mem_append, List.forall_mem_cons, List.not_mem_nil,
      false_implies, implies_true, and_true, and_assoc]
  | config r => exact (reads_config r).congr (by simp [Body.strings])
  | noEndpoint agentId => exact (reads_noEndpoint agentId).congr (by simp [Body.strings])
  | rpcError status endpoint => exact (reads_error rfl).congr (by simp [Body.strings, unescaped_rpcErrorMessage])
  | noAgentBinary platform => exact (reads_notStaged _ "agent binary" platform rfl rfl).congr (by simp [Body.strings])
  | noInstaller platform => exact (reads_notStaged _ "installer" platform rfl rfl).congr (by simp [Body.strings])

/-- **Main.** A body is JSON, and JSON for what it should say, exactly when no string in it has a control character
other than `\n` and `\t`. -/
theorem body_decodes_iff (b : Body) :
    (Decodes b.text b.value ↔ ∀ s ∈ b.strings, ¬Unescaped s) ∧
      ((∃ v, Decodes b.text v) ↔ ∀ s ∈ b.strings, ¬Unescaped s) :=
  decodes_iff (reads_body b)

/-- An agent whose version ends with a carriage return, among others. -/
theorem carriage_return_breaks_list :
    let agents : List AgentEntry :=
      [⟨"a1", 1000, 5000, "1.2.0", 1000, "10.0.0.1:50052"⟩, ⟨"a2", 1000, 5000, "1.2.0\r", 1000, "10.0.0.2:50052"⟩]
    ¬Decodes (dumpAgents 2000 agents) (Body.agents 2000 agents).value ∧ ¬∃ v, Decodes (dumpAgents 2000 agents) v := by
  intro agents
  have hbad : ¬∀ s ∈ (Body.agents 2000 agents).strings, ¬Unescaped s := by
    intro h
    exact h "1.2.0\r" (by simp [Body.strings, agents]) ⟨'\r', by decide, by decide, by decide, by decide⟩
  obtain ⟨hvalue, hjson⟩ := decodes_iff (reads_body (.agents 2000 agents))
  exact ⟨mt hvalue.1 hbad, mt hjson.1 hbad⟩

end PudimNetMon.Collector
